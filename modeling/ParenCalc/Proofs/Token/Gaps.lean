import ParenCalc.Proofs.Datum.Joining
/-!
# Tokens and the gaps between them

As far as it can be scanned a text is a row of tokens with gaps before, between and behind them, and
these are the tokens of its scan.  Gaps are made of blanks and comments, and an atom is a whole run
of name parts.  A text that is such a row is scanned into its tokens without a fault.
-/
set_option autoImplicit false

namespace ParenCalc

/-! ## Gaps -/

/-- The marks that no token contains and that are no blanks: only a comment may hold them. -/
def CodePoint.isForbidden (c : CodePoint) : Bool :=
  c = '\x22' || c = '\x27' || c = '\x60' || c = ','

/-- A forbidden mark has a place of its own: it is no blank and no part of a name, and it ends no
comment. -/
theorem CodePoint.solid_of_isForbidden (c : CodePoint) (mark : c.isForbidden = true) :
    c.isBlank = false ∧ c.isNamePart = false ∧ c ≠ CodePoint.ofChar '\n' := by
  have cases : ((c = CodePoint.ofChar '\x22' ∨ c = CodePoint.ofChar '\x27') ∨
      c = CodePoint.ofChar '\x60') ∨ c = CodePoint.ofChar ',' := by
    simpa [isForbidden] using mark
  rcases cases with ((rfl | rfl) | rfl) | rfl <;> decide

open Scan (inComment ofTextFrom)

/-- Blanks and comments in front of `rest`.  A comment is a semicolon and what follows it up to the
next line end, or up to the end of the text. -/
inductive IsGap (rest : Text) : Text → Prop
  | nil : IsGap rest []
  | blank (c : CodePoint) (gap : Text) : c.isBlank = true → IsGap rest gap → IsGap rest (c :: gap)
  | comment (body gap : Text) : (∀ c ∈ body, inComment c = true) →
      Text.Stops inComment (gap ++ rest) → IsGap rest gap →
      IsGap rest (CodePoint.ofChar ';' :: (body ++ gap))

/-- The text does not end with a code point that passes the test. -/
def Text.EndsBefore (p : CodePoint → Bool) (before : Text) : Prop :=
  ∀ c, before.getLast? = some c → p c = false

theorem Text.endsBefore_concat (p : CodePoint → Bool) (before : Text) (c : CodePoint)
    (fails : p c = false) : (before ++ [c]).EndsBefore p := by
  intro d last
  rw [List.getLast?_concat, Option.some.injEq] at last
  rwa [← last]

/-- The token stands between two texts: a parenthesis anywhere, and an atom where its name is a
whole run of name parts. -/
def Token.Stands (before : Text) (token : Token) (rest : Text) : Prop :=
  match token with
  | .opening | .closing => True
  | .atom name => Text.isName name = true ∧ before.EndsBefore CodePoint.isNamePart ∧
      rest.Stops CodePoint.isNamePart

/-- The text between `before` and `rest` is a gap, the first token, a gap, the second token and so
on, with a gap behind the last token. -/
inductive Divided (rest : Text) : Text → Text → List Token → Prop
  | last (before gap : Text) : IsGap rest gap → Divided rest before gap []
  | token (before gap : Text) (token : Token) (later : Text) (tokens : List Token) :
      IsGap (token.lexeme ++ (later ++ rest)) gap → token.Stands (before ++ gap) (later ++ rest) →
      Divided rest (before ++ gap ++ token.lexeme) later tokens →
      Divided rest before (gap ++ (token.lexeme ++ later)) (token :: tokens)

namespace Scan

/-! ## A divided text is scanned into its tokens -/

theorem ofTextFrom_gap (position : Nat) (gap rest : Text) (isGap : IsGap rest gap) :
    ofTextFrom position (gap ++ rest) = ofTextFrom (position + gap.length) rest := by
  induction isGap generalizing position with
  | nil => rfl
  | blank c gap blank _ ih =>
      rw [List.cons_append, ofTextFrom_blank _ c _ blank, ih, List.length_cons, Nat.add_right_comm,
        Nat.add_assoc]
  | comment body gap inside stops _ ih =>
      rw [List.cons_append, List.append_assoc, ofTextFrom_comment,
        Text.takeWhile_append _ body _ inside stops, Text.dropWhile_append _ body _ inside stops,
        ih, List.length_cons, List.length_append]
      congr 1
      omega

theorem ofTextFrom_token (position : Nat) (before : Text) (token : Token) (rest : Text)
    (stands : token.Stands before rest) :
    ofTextFrom position (token.lexeme ++ rest) =
      cons token (ofTextFrom (position + token.lexeme.length) rest) := by
  cases token with
  | opening => exact ofTextFrom_opening position rest
  | closing => exact ofTextFrom_closing position rest
  | atom name => exact spells_name name stands.1 position rest stands.2.2

theorem ofTextFrom_divided (position : Nat) (before t rest : Text) (tokens : List Token)
    (divided : Divided rest before t tokens) :
    ofTextFrom position (t ++ rest) = prepend tokens (ofTextFrom (position + t.length) rest) := by
  induction divided generalizing position with
  | last before gap isGap => exact ofTextFrom_gap position gap rest isGap
  | token before gap token later tokens isGap stands _ ih =>
      rw [List.append_assoc, List.append_assoc, ofTextFrom_gap position gap _ isGap,
        ofTextFrom_token _ _ token _ stands, ih, List.length_append, List.length_append,
        Nat.add_assoc position, Nat.add_assoc position, Nat.add_assoc gap.length]
      rfl

/-! ## A text is divided as it is scanned -/

end Scan

namespace Divided

theorem blank (rest before : Text) (c : CodePoint) (t : Text) (tokens : List Token)
    (isBlank : c.isBlank = true) (divided : Divided rest (before ++ [c]) t tokens) :
    Divided rest before (c :: t) tokens := by
  cases divided with
  | last _ gap isGap => exact .last before (c :: t) (.blank c t isBlank isGap)
  | token _ gap token later tokens isGap stands divided =>
      have front : before ++ [c] ++ gap = before ++ c :: gap := by simp
      rw [front] at stands divided
      exact .token before (c :: gap) token later tokens (.blank c gap isBlank isGap) stands divided

theorem comment (rest before body t : Text) (tokens : List Token)
    (inside : ∀ c ∈ body, inComment c = true) (stops : (t ++ rest).Stops inComment)
    (divided : Divided rest (before ++ CodePoint.ofChar ';' :: body) t tokens) :
    Divided rest before (CodePoint.ofChar ';' :: (body ++ t)) tokens := by
  cases divided with
  | last _ gap isGap => exact .last before _ (.comment body t inside stops isGap)
  | token _ gap token later tokens isGap stands divided =>
      have front : before ++ CodePoint.ofChar ';' :: body ++ gap =
          before ++ CodePoint.ofChar ';' :: (body ++ gap) := by simp
      rw [front] at stands divided
      rw [List.append_assoc, List.append_assoc] at stops
      have whole := Divided.token before (CodePoint.ofChar ';' :: (body ++ gap)) token later tokens
        (.comment body gap inside stops isGap) stands divided
      rwa [List.cons_append, List.append_assoc] at whole

theorem front (rest before : Text) (token : Token) (later : Text) (tokens : List Token)
    (stands : token.Stands before (later ++ rest))
    (divided : Divided rest (before ++ token.lexeme) later tokens) :
    Divided rest before (token.lexeme ++ later) (token :: tokens) := by
  have same : before ++ [] = before := List.append_nil before
  exact .token before [] token later tokens .nil (same.symm ▸ stands) (same.symm ▸ divided)

end Divided

namespace Scan

/-- What a scan comes to: it has the tokens of the text as far as it has come, which is the end, or
else a forbidden mark that the fault names with its place. -/
def Halts (s : Scan) (position : Nat) (before t : Text) : Prop :=
  ∃ front rest, t = front ++ rest ∧ Divided rest before front s.tokens ∧
    (rest = [] ∧ s.fault = none ∨
      ∃ c more, rest = c :: more ∧ c.isForbidden = true ∧
        s.fault = some (.unexpected (position + front.length) c))

theorem halts_blank (s : Scan) (position : Nat) (before : Text) (c : CodePoint) (t : Text)
    (blank : c.isBlank = true) (halts : s.Halts (position + 1) (before ++ [c]) t) :
    s.Halts position before (c :: t) := by
  obtain ⟨front, rest, rfl, divided, ending⟩ := halts
  refine ⟨c :: front, rest, rfl, divided.blank rest before c front s.tokens blank, ?_⟩
  rwa [List.length_cons, ← Nat.add_assoc, Nat.add_right_comm]

theorem halts_comment (s : Scan) (position : Nat) (before body t : Text)
    (inside : ∀ c ∈ body, inComment c = true) (stops : t.Stops inComment)
    (halts : s.Halts (position + 1 + body.length) (before ++ CodePoint.ofChar ';' :: body) t) :
    s.Halts position before (CodePoint.ofChar ';' :: (body ++ t)) := by
  obtain ⟨front, rest, rfl, divided, ending⟩ := halts
  refine ⟨CodePoint.ofChar ';' :: (body ++ front), rest, by simp,
    divided.comment rest before body front s.tokens inside stops, ?_⟩
  have place : position + (CodePoint.ofChar ';' :: (body ++ front)).length =
      position + 1 + body.length + front.length := by
    rw [List.length_cons, List.length_append]
    omega
  rwa [place]

theorem halts_token (s : Scan) (position : Nat) (before : Text) (token : Token) (t : Text)
    (stands : token.Stands before t)
    (halts : s.Halts (position + token.lexeme.length) (before ++ token.lexeme) t) :
    (cons token s).Halts position before (token.lexeme ++ t) := by
  obtain ⟨front, rest, rfl, divided, ending⟩ := halts
  refine ⟨token.lexeme ++ front, rest, (List.append_assoc ..).symm,
    divided.front rest before token front s.tokens stands, ?_⟩
  rwa [List.length_append, ← Nat.add_assoc]

/-- Every scan halts in this way.  What comes before matters only when the text goes on with a name
part: then nothing before may be one. -/
theorem halts_ofTextFrom (position : Nat) (before t : Text)
    (bound : before.EndsBefore CodePoint.isNamePart ∨ t.Stops CodePoint.isNamePart) :
    (ofTextFrom position t).Halts position before t := by
  fun_induction ofTextFrom position t generalizing before with
  | case1 position => exact ⟨[], [], rfl, .last before [] .nil, .inl ⟨rfl, rfl⟩⟩
  | case2 position c rest blank ih =>
      exact halts_blank _ position before c rest blank
        (ih _ (.inl (Text.endsBefore_concat _ before c (isNamePart_of_isBlank c blank))))
  | case3 position rest solid ih =>
      have inside : ∀ c ∈ rest.takeWhile inComment, inComment c = true :=
        List.all_eq_true.mp List.all_takeWhile
      have stops := Text.stops_dropWhile inComment rest
      have lineEnd : Text.Stops CodePoint.isNamePart (rest.dropWhile inComment) := by
        intro c first
        have : c = CodePoint.ofChar '\n' := by simpa [inComment] using stops c first
        rw [this]
        decide
      have whole := halts_comment _ position before _ _ inside stops (ih _ (.inr lineEnd))
      rwa [List.takeWhile_append_dropWhile] at whole
  | case4 position rest solid notComment ih =>
      exact halts_token _ position before .opening rest trivial
        (ih _ (.inl (Text.endsBefore_concat _ before _ (by decide))))
  | case5 position rest solid notComment notOpening ih =>
      exact halts_token _ position before .closing rest trivial
        (ih _ (.inl (Text.endsBefore_concat _ before _ (by decide))))
  | case6 position c rest solid notComment notOpening notClosing part more ih =>
      have parts : ∀ d ∈ more, d.isNamePart = true := List.all_eq_true.mp List.all_takeWhile
      have stops := Text.stops_dropWhile CodePoint.isNamePart rest
      have ends : before.EndsBefore CodePoint.isNamePart := by
        rcases bound with ends | stopped
        · exact ends
        · exact absurd part (Bool.eq_false_iff.mp (stopped c rfl))
      have name : Text.isName (c :: more) = true := by simpa [Text.isName, part] using parts
      have size : position + (c :: more).length = position + 1 + more.length := by
        rw [List.length_cons]
        omega
      have whole := halts_token _ position before (.atom (c :: more)) _ ⟨name, ends, stops⟩
        (by
          rw [Token.lexeme, size]
          exact ih (before ++ c :: more) (.inr stops))
      rwa [Token.lexeme, List.cons_append, List.takeWhile_append_dropWhile] at whole
  | case7 position c rest solid notComment notOpening notClosing noPart =>
      have forbidden : c.isForbidden = true := by
        have delimiter : c.isDelimiter = true := by
          simpa [CodePoint.isNamePart, solid] using noPart
        simpa [CodePoint.isDelimiter, CodePoint.isForbidden, notOpening, notClosing, notComment]
          using delimiter
      exact ⟨[], c :: rest, rfl, .last before [] .nil, .inr ⟨c, rest, rfl, forbidden, rfl⟩⟩

end Scan

/-! ## A divided text alone -/

theorem IsGap.alone (x rest gap : Text) (isGap : IsGap (x ++ rest) gap) : IsGap x gap := by
  induction isGap with
  | nil => exact .nil
  | blank c gap blank _ ih => exact .blank c gap blank ih
  | comment body gap inside stops _ ih =>
      rw [← List.append_assoc] at stops
      exact .comment body gap inside (Text.stops_of_append _ _ rest stops) ih

/-- A divided text is so too when nothing follows it. -/
theorem Divided.alone (rest before t : Text) (tokens : List Token)
    (divided : Divided rest before t tokens) : Divided [] before t tokens := by
  induction divided with
  | last before gap isGap => exact .last before gap (isGap.alone [] rest gap)
  | token before gap token later tokens isGap stands _ ih =>
      rw [← List.append_assoc] at isGap
      have front : IsGap (token.lexeme ++ (later ++ [])) gap := by
        rw [List.append_nil]
        exact isGap.alone _ rest gap
      refine .token before gap token later tokens front ?_ ih
      cases token with
      | opening | closing => trivial
      | atom name =>
          rw [List.append_nil]
          exact ⟨stands.1, stands.2.1, Text.stops_of_append _ later rest stands.2.2⟩

namespace Scan

theorem ofText_of_divided (t rest : Text) (tokens : List Token)
    (divided : Divided rest [] t tokens) : ofText t = ⟨tokens, none⟩ := by
  have whole := ofTextFrom_divided 0 [] t [] tokens (divided.alone rest [] t tokens)
  rw [List.append_nil, ofTextFrom, prepend, List.append_nil] at whole
  exact whole

end Scan

end ParenCalc
