import ParenCalc.Proofs.Token.Gaps
/-!
# Marks outside comments

A quotation mark or a comma stands in no token and in no gap, unless a comment holds it.  So a scan
ends with a fault exactly when there is one outside every comment, at the first of them, and with
the tokens of the text before it.
-/
set_option autoImplicit false

namespace ParenCalc

open Scan (inComment)

/-! ## Comments -/

/-- The text breaks off inside a comment: no line end stands behind one of its semicolons. -/
def Text.EndsInComment (t : Text) : Prop :=
  ∃ outside body, t = outside ++ CodePoint.ofChar ';' :: body ∧ CodePoint.ofChar '\n' ∉ body

/-- A forbidden mark stands at this place, and outside every comment. -/
def Text.BarredAt (t : Text) (position : Nat) (c : CodePoint) : Prop :=
  t[position]? = some c ∧ c.isForbidden = true ∧ ¬Text.EndsInComment (t.take position)

namespace Text

theorem not_endsInComment_nil : ¬EndsInComment [] := by
  rintro ⟨outside, body, split, -⟩
  simp at split

theorem endsInComment_concat (t : Text) (c : CodePoint) :
    EndsInComment (t ++ [c]) ↔
      c = CodePoint.ofChar ';' ∨ c ≠ CodePoint.ofChar '\n' ∧ t.EndsInComment := by
  constructor
  · rintro ⟨outside, body, split, noLineEnd⟩
    rcases List.eq_nil_or_concat body with rfl | ⟨front, d, rfl⟩
    · exact .inl (List.singleton_inj.mp (List.append_inj_right' split rfl))
    · have split' : t ++ [c] = (outside ++ CodePoint.ofChar ';' :: front) ++ [d] := by
        rw [split]
        simp
      have last : c = d := List.singleton_inj.mp (List.append_inj_right' split' rfl)
      have init : t = outside ++ CodePoint.ofChar ';' :: front := List.append_inj_left' split' rfl
      rw [List.concat_eq_append, List.mem_append, not_or] at noLineEnd
      refine .inr ⟨?_, outside, front, init, noLineEnd.1⟩
      rintro rfl
      exact noLineEnd.2 (by simp [last])
  · rintro (rfl | ⟨other, outside, body, rfl, noLineEnd⟩)
    · exact ⟨t, [], rfl, List.not_mem_nil⟩
    · refine ⟨outside, body ++ [c], by simp, ?_⟩
      simp [noLineEnd, other.symm]

/-- Only a semicolon begins a comment. -/
theorem endsInComment_of_append (before run : Text) (plain : ∀ c ∈ run, c ≠ CodePoint.ofChar ';')
    (ends : EndsInComment (before ++ run)) : before.EndsInComment := by
  induction run generalizing before with
  | nil => rwa [List.append_nil] at ends
  | cons c run ih =>
      rw [List.append_cons before c run] at ends
      have plainLater (d : CodePoint) (member : d ∈ run) := plain d (List.mem_cons_of_mem c member)
      have later := ih (before ++ [c]) plainLater ends
      rcases (endsInComment_concat before c).mp later with semicolon | ⟨-, opened⟩
      · exact absurd semicolon (plain c List.mem_cons_self)
      · exact opened

/-- Every forbidden mark of the text lies in a comment, where the text stands behind `before`. -/
def Quiet : Text → Text → Prop
  | _, [] => True
  | before, c :: t => (c.isForbidden = true → before.EndsInComment) ∧ Quiet (before ++ [c]) t

theorem quiet_append (before s t : Text) :
    Quiet before (s ++ t) ↔ Quiet before s ∧ Quiet (before ++ s) t := by
  induction s generalizing before with
  | nil => simp [Quiet]
  | cons c s ih => rw [List.cons_append, Quiet, Quiet, ih, and_assoc, List.append_cons before c s]

theorem quiet_of_plain (before run : Text) (plain : ∀ c ∈ run, c.isForbidden = false) :
    Quiet before run := by
  induction run generalizing before with
  | nil => trivial
  | cons c run ih =>
      have free : c.isForbidden = false := plain c List.mem_cons_self
      exact ⟨fun mark => by simp [free] at mark,
        ih (before ++ [c]) fun d member => plain d (List.mem_cons_of_mem c member)⟩

theorem quiet_of_inside (before body : Text) (opened : before.EndsInComment)
    (inside : ∀ c ∈ body, inComment c = true) :
    Quiet before body ∧ EndsInComment (before ++ body) := by
  induction body generalizing before with
  | nil => exact ⟨trivial, by rwa [List.append_nil]⟩
  | cons c body ih =>
      have other : c ≠ CodePoint.ofChar '\n' := by
        simpa [inComment] using inside c List.mem_cons_self
      have further := (endsInComment_concat before c).mpr (.inr ⟨other, opened⟩)
      obtain ⟨quiet, ends⟩ := ih (before ++ [c]) further fun d member =>
        inside d (List.mem_cons_of_mem c member)
      rw [← List.append_cons] at ends
      exact ⟨⟨fun _ => opened, quiet⟩, ends⟩

theorem endsInComment_of_quiet (before t : Text) (quiet : Quiet before t) (i : Nat) (c : CodePoint)
    (place : t[i]? = some c) (mark : c.isForbidden = true) :
    EndsInComment (before ++ t.take i) := by
  induction t generalizing before i with
  | nil => simp at place
  | cons d t ih =>
      cases i with
      | zero =>
          rw [List.getElem?_cons_zero, Option.some.injEq] at place
          rw [List.take_zero, List.append_nil]
          exact quiet.1 (place ▸ mark)
      | succ i =>
          rw [List.getElem?_cons_succ] at place
          rw [List.take_succ_cons, List.append_cons]
          exact ih (before ++ [d]) quiet.2 i place

/-- A text that breaks off inside a comment goes on with a line end, if it goes on at all. -/
def Settled (before rest : Text) : Prop := before.EndsInComment → Stops inComment rest

theorem quiet_gap (rest before gap : Text) (isGap : IsGap rest gap)
    (settled : before.Settled (gap ++ rest)) : Quiet before gap ∧ (before ++ gap).Settled rest := by
  induction isGap generalizing before with
  | nil => exact ⟨trivial, by rwa [List.append_nil]⟩
  | blank c gap blank _ ih =>
      have free : c.isForbidden = false := by
        rw [Bool.eq_false_iff]
        intro mark
        simp [(c.solid_of_isForbidden mark).1] at blank
      have closed : ¬EndsInComment (before ++ [c]) := by
        rw [endsInComment_concat]
        rintro (rfl | ⟨other, opened⟩)
        · exact absurd blank (by decide)
        -- behind an open comment only its line end may stand
        · have stopped := settled opened c rfl
          exact other (by simpa [inComment] using stopped)
      obtain ⟨quiet, later⟩ := ih (before ++ [c]) fun opened => absurd opened closed
      refine ⟨⟨fun mark => by simp [free] at mark, quiet⟩, ?_⟩
      rwa [List.append_cons before c gap]
  | comment body gap inside stops _ ih =>
      have begun : (before ++ [CodePoint.ofChar ';']).EndsInComment :=
        (endsInComment_concat before _).mpr (.inl rfl)
      obtain ⟨quietBody, ends⟩ := quiet_of_inside _ body begun inside
      obtain ⟨quiet, later⟩ := ih _ fun _ => stops
      have whole := (quiet_append _ body gap).mpr ⟨quietBody, quiet⟩
      refine ⟨⟨fun mark => absurd mark (by decide), whole⟩, ?_⟩
      rwa [List.append_cons before, ← List.append_assoc]

theorem plain_of_stands (before : Text) (token : Token) (rest : Text)
    (stands : token.Stands before rest) :
    ∃ c more, token.lexeme = c :: more ∧ inComment c = true ∧
      ∀ d ∈ c :: more, d.isForbidden = false ∧ d ≠ CodePoint.ofChar ';' := by
  cases token with
  | opening => exact ⟨_, [], rfl, by decide, by decide⟩
  | closing => exact ⟨_, [], rfl, by decide, by decide⟩
  | atom name =>
      cases name with
      | nil => simp [Token.Stands, Text.isName] at stands
      | cons c more =>
          have parts : ∀ d ∈ c :: more, d.isNamePart = true := by
            simpa [Text.isName] using stands.1
          refine ⟨c, more, rfl, ?_, fun d member => ⟨?_, ?_⟩⟩
          · have part := parts c List.mem_cons_self
            unfold inComment
            rw [decide_eq_true_eq]
            rintro rfl
            exact absurd part (by decide)
          · rw [Bool.eq_false_iff]
            intro mark
            exact absurd (parts d member) (by simp [(d.solid_of_isForbidden mark).2.1])
          · rintro rfl
            exact absurd (parts _ member) (by decide)

/-- In a divided text nothing but a comment holds a forbidden mark. -/
theorem quiet_divided (rest before t : Text) (tokens : List Token)
    (divided : Divided rest before t tokens) (settled : before.Settled (t ++ rest)) :
    Quiet before t ∧ (before ++ t).Settled rest := by
  induction divided with
  | last before gap isGap => exact quiet_gap rest before gap isGap settled
  | token before gap token later tokens isGap stands _ ih =>
      rw [List.append_assoc, List.append_assoc] at settled
      obtain ⟨quiet, settledGap⟩ := quiet_gap _ before gap isGap settled
      obtain ⟨c, more, lexeme, goesOn, plain⟩ := plain_of_stands _ token _ stands
      -- the token does not begin with a line end, so no comment is open before it
      have closed : ¬EndsInComment (before ++ gap) := by
        intro opened
        have stopped := settledGap opened c (by rw [lexeme]; rfl)
        simp [goesOn] at stopped
      have free (d : CodePoint) (member : d ∈ token.lexeme) := plain d (lexeme ▸ member)
      obtain ⟨quietLater, settledLater⟩ := ih fun opened =>
        absurd (endsInComment_of_append _ _ (fun d member => (free d member).2) opened) closed
      refine ⟨?_, ?_⟩
      · rw [quiet_append, quiet_append]
        exact ⟨quiet, quiet_of_plain _ _ fun d member => (free d member).1, quietLater⟩
      · rwa [List.append_assoc, List.append_assoc] at settledLater

end Text

/-! ## The scan of a text -/

namespace Scan

/-- A text is divided by the tokens of its scan up to its end, or else up to a mark outside
comments, with no such mark before it. -/
theorem ofText_cases (t : Text) :
    (∃ tokens, ofText t = ⟨tokens, none⟩ ∧ Divided [] [] t tokens ∧ ∀ j d, ¬t.BarredAt j d) ∨
    (∃ front c more tokens, t = front ++ c :: more ∧
      ofText t = ⟨tokens, some (.unexpected front.length c)⟩ ∧
      Divided (c :: more) [] front tokens ∧ t.BarredAt front.length c ∧
      ∀ j d, t.BarredAt j d → front.length ≤ j) := by
  obtain ⟨front, rest, split, divided, ending⟩ :=
    halts_ofTextFrom 0 [] t (.inl fun c last => by simp at last)
  obtain ⟨quiet, settled⟩ := Text.quiet_divided rest [] front _ divided fun opened =>
    absurd opened Text.not_endsInComment_nil
  have clear (j : Nat) (d : CodePoint) (within : j < front.length) : ¬t.BarredAt j d := by
    rintro ⟨place, mark, outside⟩
    rw [split, List.getElem?_append_left within] at place
    rw [split, List.take_append_of_le_length (Nat.le_of_lt within)] at outside
    exact outside (Text.endsInComment_of_quiet [] front quiet j d place mark)
  rcases ending with ⟨rfl, clean⟩ | ⟨c, more, rfl, mark, fault⟩
  · rw [List.append_nil] at split
    subst split
    refine .inl ⟨_, eq_of_tokens _ ⟨_, none⟩ rfl clean, divided, fun j d barred => ?_⟩
    obtain ⟨within, -⟩ := List.getElem?_eq_some_iff.mp barred.1
    exact clear j d within barred
  · rw [Nat.zero_add] at fault
    have here : t.BarredAt front.length c := by
      refine ⟨?_, mark, ?_⟩
      · rw [split, List.getElem?_append_right (Nat.le_refl _), Nat.sub_self]
        rfl
      · rw [split, List.take_left]
        intro opened
        have lineEnd := settled opened c rfl
        exact (c.solid_of_isForbidden mark).2.2 (by simpa [inComment] using lineEnd)
    refine .inr ⟨front, c, more, _, split, eq_of_tokens _ ⟨_, some _⟩ rfl fault, divided, here, ?_⟩
    intro j d barred
    apply Nat.not_lt.mp
    intro within
    exact clear j d within barred

theorem fault_eq_some_iff (t : Text) (cause : Malformed) :
    (ofText t).fault = some cause ↔
      ∃ i c, cause = .unexpected i c ∧ t.BarredAt i c ∧ ∀ j d, t.BarredAt j d → i ≤ j := by
  rcases ofText_cases t with ⟨tokens, scanned, -, clear⟩ |
    ⟨front, c, more, tokens, -, scanned, -, here, first⟩
  · rw [scanned]
    constructor
    · intro faulty
      simp at faulty
    · rintro ⟨i, c, -, barred, -⟩
      exact absurd barred (clear i c)
  · rw [scanned]
    constructor
    · intro faulty
      exact ⟨front.length, c, (Option.some.inj faulty).symm, here, first⟩
    · rintro ⟨i, d, rfl, barred, least⟩
      have same : i = front.length := Nat.le_antisymm (least _ _ here) (first _ _ barred)
      subst same
      have mark : some c = some d := here.1.symm.trans barred.1
      rw [Option.some.inj mark]

theorem isSome_fault_iff (t : Text) :
    (ofText t).fault.isSome = true ↔ ∃ i c, t.BarredAt i c := by
  rcases ofText_cases t with ⟨tokens, scanned, -, clear⟩ |
    ⟨front, c, more, tokens, -, scanned, -, here, -⟩
  · rw [scanned]
    exact ⟨fun faulty => by simp at faulty, fun ⟨i, c, barred⟩ => absurd barred (clear i c)⟩
  · rw [scanned]
    exact ⟨fun _ => ⟨front.length, c, here⟩, fun _ => rfl⟩

theorem ofText_eq_iff_divided (t : Text) (tokens : List Token) :
    ofText t = ⟨tokens, none⟩ ↔ Divided [] [] t tokens := by
  refine ⟨fun scanned => ?_, ofText_of_divided t [] tokens⟩
  rcases ofText_cases t with ⟨own, again, divided, -⟩ |
    ⟨front, c, more, own, -, again, -, -, -⟩
  · have same : own = tokens := congrArg Scan.tokens (again.symm.trans scanned)
    rwa [← same]
  · have faults := congrArg Scan.fault (again.symm.trans scanned)
    simp at faults

/-- The tokens of a scan that ends with a fault are those of the text before the place it names. -/
theorem divided_before_fault (t : Text) (i : Nat) (c : CodePoint)
    (faulty : (ofText t).fault = some (.unexpected i c)) :
    Divided (t.drop i) [] (t.take i) (ofText t).tokens ∧
      ofText (t.take i) = ⟨(ofText t).tokens, none⟩ := by
  rcases ofText_cases t with ⟨tokens, scanned, -, -⟩ |
    ⟨front, d, more, tokens, split, scanned, divided, -, -⟩
  · simp [scanned] at faulty
  · rw [scanned, Option.some.injEq, Malformed.unexpected.injEq] at faulty
    obtain ⟨rfl, rfl⟩ := faulty
    rw [scanned, split, List.drop_left, List.take_left]
    exact ⟨divided, ofText_of_divided front _ tokens divided⟩

end Scan

/-- A text scans without a fault into some tokens exactly when it is a row of these tokens with gaps
before, between and behind them, the gaps made of blanks and comments, and the atoms being whole
runs of name parts.  There is a fault exactly when a forbidden mark stands outside every comment;
the report names the place and the mark of the first one, and the tokens of the scan are then those
of the text before it, which is divided by them.  What follows a text without a fault on a new line
adds its own tokens. -/
theorem scan_is_lossless (t : Text) :
    (∀ tokens, Scan.ofText t = ⟨tokens, none⟩ ↔ Divided [] [] t tokens) ∧
    ((Scan.ofText t).fault.isSome = true ↔ ∃ i c, t.BarredAt i c) ∧
    (∀ cause, (Scan.ofText t).fault = some cause ↔
      ∃ i c, cause = .unexpected i c ∧ t.BarredAt i c ∧ ∀ j d, t.BarredAt j d → i ≤ j) ∧
    (∀ i c, (Scan.ofText t).fault = some (.unexpected i c) →
      Divided (t.drop i) [] (t.take i) (Scan.ofText t).tokens ∧
      Scan.ofText (t.take i) = ⟨(Scan.ofText t).tokens, none⟩ ∧
      (Fault.malformed (.unexpected i c)).report =
        .malformed ("Unexpected char at " ++ Text.ofNat i ++ ": " ++ Text.quoted [c]) (some [c])) ∧
    ((Scan.ofText t).fault = none → ∀ more,
      (Scan.ofText (t ++ CodePoint.ofChar '\n' :: more)).tokens =
        (Scan.ofText t).tokens ++ (Scan.ofText more).tokens) := by
  refine ⟨Scan.ofText_eq_iff_divided t, Scan.isSome_fault_iff t, Scan.fault_eq_some_iff t, ?_, ?_⟩
  · intro i c faulty
    obtain ⟨divided, before⟩ := Scan.divided_before_fault t i c faulty
    exact ⟨divided, before, rfl⟩
  · intro clear more
    rw [Scan.ofText_append_line t more clear]
    rfl

end ParenCalc
