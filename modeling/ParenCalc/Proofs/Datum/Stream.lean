import ParenCalc.Proofs.Datum.Joining
/-!
# A stream of tokens

A stream scans its text only as far as the tokens that are asked for.  It holds back at most one
token, which has been looked at and not taken yet, and it notes what it has handed out.  Reading
from a stream takes one token after another.  It answers as the cursor does that has scanned the
whole text before.
-/
set_option autoImplicit false

namespace ParenCalc

theorem Forms.all_cons (d : Datum) (f : Forms) :
    (Forms.mk (d :: f.data) f.fault f.rest).all = f.all.map (d :: ·) := by
  unfold Forms.all
  cases f.fault <;> rfl

namespace Scan

theorem cons_of_advance (s after : Scan) (token : Token)
    (run : s.advance = (.ok (some token), after)) : s = cons token after := by
  obtain ⟨tokens, fault⟩ := s
  cases tokens with
  | nil => cases fault <;> simp [advance, peek] at run
  | cons first rest =>
      simp only [advance, Prod.mk.injEq, Except.ok.injEq, Option.some.injEq] at run
      obtain ⟨rfl, rfl⟩ := run
      rfl

theorem cons_of_peek (s after : Scan) (token : Token)
    (run : s.peek = (.ok (some token), after)) : ∃ rest, s = cons token rest ∧ after = s := by
  obtain ⟨tokens, fault⟩ := s
  cases tokens with
  | nil => cases fault <;> simp [peek] at run
  | cons first rest =>
      simp only [peek, Prod.mk.injEq, Except.ok.injEq, Option.some.injEq] at run
      obtain ⟨rfl, rfl⟩ := run
      exact ⟨⟨rest, fault⟩, rfl, rfl⟩

theorem eq_of_advance_none (s after : Scan) (run : s.advance = (.ok none, after)) :
    s = ⟨[], none⟩ ∧ after = ⟨[], none⟩ := by
  obtain ⟨tokens, fault⟩ := s
  cases tokens with
  | nil => cases fault <;> simp_all [advance, peek]
  | cons first rest => simp [advance] at run

theorem eq_of_advance_error (s after : Scan) (cause : Malformed)
    (run : s.advance = (.error cause, after)) : s = ⟨[], some cause⟩ ∧ after = ⟨[], none⟩ := by
  obtain ⟨tokens, fault⟩ := s
  cases tokens with
  | nil => cases fault <;> simp_all [advance, peek]
  | cons first rest => simp [advance] at run

/-- At the end a peek and an advance are the same. -/
theorem advance_of_peek (s after : Scan) (answer : Except Malformed (Option Token))
    (ends : ∀ token, answer ≠ .ok (some token)) (run : s.peek = (answer, after)) :
    s.advance = (answer, after) := by
  obtain ⟨tokens, fault⟩ := s
  cases tokens with
  | nil => exact run
  | cons first rest => exact absurd (congrArg Prod.fst run).symm (ends first)

theorem eq_of_peek_none (s after : Scan) (run : s.peek = (.ok none, after)) :
    s = ⟨[], none⟩ ∧ after = ⟨[], none⟩ :=
  s.eq_of_advance_none after (s.advance_of_peek after _ (by simp) run)

theorem eq_of_peek_error (s after : Scan) (cause : Malformed)
    (run : s.peek = (.error cause, after)) : s = ⟨[], some cause⟩ ∧ after = ⟨[], none⟩ :=
  s.eq_of_advance_error after cause (s.advance_of_peek after _ (by simp) run)

end Scan

/-! ## Pulling tokens -/

/-- What is left of a text, and the place where it begins. -/
structure Source where
  position : Nat
  left : Text

namespace Source

/-- What the rest of the text would be scanned into. -/
def scan (s : Source) : Scan := Scan.ofTextFrom s.position s.left

open Scan (inComment length_dropWhile_le)

/-- The next token, nothing at the end.  After a fault nothing is left of the text. -/
def pullFrom (position : Nat) : Text → Except Malformed (Option Token) × Source
  | [] => (.ok none, ⟨position, []⟩)
  | c :: rest =>
    if c.isBlank then pullFrom (position + 1) rest
    else if c = ';' then
      pullFrom (position + 1 + (rest.takeWhile inComment).length) (rest.dropWhile inComment)
    else if c = '(' then (.ok (some .opening), ⟨position + 1, rest⟩)
    else if c = ')' then (.ok (some .closing), ⟨position + 1, rest⟩)
    else if c.isNamePart then
      let more := rest.takeWhile CodePoint.isNamePart
      (.ok (some (.atom (c :: more))),
        ⟨position + 1 + more.length, rest.dropWhile CodePoint.isNamePart⟩)
    else (.error (.unexpected position c), ⟨position, []⟩)
termination_by t => t.length
decreasing_by
  · exact Nat.lt_succ_self _
  · exact Nat.lt_succ_of_le (length_dropWhile_le _ _)

def pull (s : Source) : Except Malformed (Option Token) × Source := pullFrom s.position s.left

theorem advance_eq_pullFrom (position : Nat) (t : Text) :
    (Scan.ofTextFrom position t).advance =
      ((pullFrom position t).1, (pullFrom position t).2.scan) := by
  fun_induction pullFrom position t with
  | case1 position => simp [scan, Scan.ofTextFrom, Scan.advance, Scan.peek]
  | case2 position c rest blank ih => rw [Scan.ofTextFrom_blank position c rest blank, ih]
  | case3 position rest solid ih => rw [Scan.ofTextFrom_comment, ih]
  | case4 position rest solid notComment =>
      rw [Scan.ofTextFrom_opening]
      rfl
  | case5 position rest solid notComment notOpening =>
      rw [Scan.ofTextFrom_closing]
      rfl
  | case6 position c rest solid notComment notOpening notClosing part more =>
      rw [Scan.ofTextFrom_name position c rest part]
      rfl
  | case7 position c rest solid notComment notOpening notClosing noPart =>
      rw [Scan.ofTextFrom, if_neg solid, if_neg notComment, if_neg notOpening, if_neg notClosing,
        if_neg noPart]
      simp [scan, Scan.ofTextFrom, Scan.advance, Scan.peek]

/-- A pull takes the first token, or it meets the end of the text, or a fault, which is then
past. -/
theorem pull_cases (s : Source) :
    (∃ token later, s.pull = (.ok (some token), later) ∧ s.scan = Scan.cons token later.scan) ∨
    (∃ later, s.pull = (.ok none, later) ∧ s.scan = ⟨[], none⟩ ∧ later.scan = ⟨[], none⟩) ∨
    (∃ cause later, s.pull = (.error cause, later) ∧ s.scan = ⟨[], some cause⟩ ∧
      later.scan = ⟨[], none⟩) := by
  have advanced : s.scan.advance = (s.pull.1, s.pull.2.scan) :=
    advance_eq_pullFrom s.position s.left
  cases pulled : s.pull with
  | mk answer later =>
      rw [pulled] at advanced
      match answer with
      | .ok (some token) => exact .inl ⟨token, later, rfl, Scan.cons_of_advance _ _ _ advanced⟩
      | .ok none => exact .inr (.inl ⟨later, rfl, Scan.eq_of_advance_none _ _ advanced⟩)
      | .error cause =>
          exact .inr (.inr ⟨cause, later, rfl, Scan.eq_of_advance_error _ _ _ advanced⟩)

end Source

/-- A text that is scanned token by token: the token that is held back, the rest of the text, and
the tokens that have been handed out so far, which nothing depends on. -/
structure Stream where
  held : Option Token
  source : Source
  taken : List Token

namespace Stream

def ofText (t : Text) : Stream := ⟨none, ⟨0, t⟩, []⟩

/-- The next token, which is held back; nothing at the end. -/
def peek (s : Stream) : Except Malformed (Option Token) × Stream :=
  match s.held with
  | some t => (.ok (some t), s)
  | none =>
    match s.source.pull with
    | (.ok (some t), source) => (.ok (some t), ⟨some t, source, s.taken⟩)
    | (answer, source) => (answer, ⟨none, source, s.taken⟩)

/-- The next token, handed out; nothing at the end. -/
def advance (s : Stream) : Except Malformed (Option Token) × Stream :=
  match s.held with
  | some t => (.ok (some t), ⟨none, s.source, s.taken ++ [t]⟩)
  | none =>
    match s.source.pull with
    | (.ok (some t), source) => (.ok (some t), ⟨none, source, s.taken ++ [t]⟩)
    | (answer, source) => (answer, ⟨none, source, s.taken⟩)

/-- The cursor that has what the stream has to hand out. -/
def scan (s : Stream) : Scan := Scan.prepend s.held.toList s.source.scan

/-! ## One token -/

theorem scan_unheld (source : Source) (taken : List Token) :
    (mk none source taken).scan = source.scan := rfl

/-- What a stream does comes to what its cursor does, and all that is taken off is handed out. -/
structure Follows {α : Type} (s : Stream) (streamed : α × Stream) (scanned : α × Scan) : Prop where
  agrees : (streamed.1, streamed.2.scan) = scanned
  takes : streamed.2.taken ++ streamed.2.scan.tokens = s.taken ++ s.scan.tokens

theorem Follows.trans {α β : Type} {s : Stream} {first : α × Stream} {firstScan : α × Scan}
    {second : β × Stream} {secondScan : β × Scan} (one : s.Follows first firstScan)
    (other : first.2.Follows second secondScan) : s.Follows second secondScan :=
  ⟨other.agrees, other.takes.trans one.takes⟩

theorem follows_at_end {α : Type} (source later : Source) (taken : List Token) (answer : α)
    (empty : source.scan.tokens = []) (after : later.scan = ⟨[], none⟩) :
    (mk none source taken).Follows (answer, mk none later taken) (answer, ⟨[], none⟩) := by
  refine ⟨Prod.ext rfl after, ?_⟩
  show taken ++ later.scan.tokens = taken ++ source.scan.tokens
  rw [after, empty]

theorem peek_follows (s : Stream) : s.Follows s.peek s.scan.peek ∧ s.peek.2.taken = s.taken := by
  obtain ⟨held, source, taken⟩ := s
  cases held with
  | some token => exact ⟨⟨rfl, rfl⟩, rfl⟩
  | none =>
      rw [scan_unheld]
      rcases source.pull_cases with ⟨token, later, pulled, before⟩ |
        ⟨later, pulled, before, after⟩ | ⟨cause, later, pulled, before, after⟩
      · have peeked : peek ⟨none, source, taken⟩ =
            (.ok (some token), ⟨some token, later, taken⟩) := by simp only [peek, pulled]
        rw [peeked, before]
        refine ⟨⟨rfl, ?_⟩, rfl⟩
        show taken ++ token :: later.scan.tokens = taken ++ source.scan.tokens
        rw [before]
        rfl
      · have peeked : peek ⟨none, source, taken⟩ = (.ok none, ⟨none, later, taken⟩) := by
          simp only [peek, pulled]
        rw [peeked, before]
        exact ⟨follows_at_end source later taken _ (by rw [before]) after, rfl⟩
      · have peeked : peek ⟨none, source, taken⟩ = (.error cause, ⟨none, later, taken⟩) := by
          simp only [peek, pulled]
        rw [peeked, before]
        exact ⟨follows_at_end source later taken _ (by rw [before]) after, rfl⟩

theorem advance_follows (s : Stream) : s.Follows s.advance s.scan.advance := by
  obtain ⟨held, source, taken⟩ := s
  cases held with
  | some token => exact ⟨rfl, (List.append_cons taken token source.scan.tokens).symm⟩
  | none =>
      rw [scan_unheld]
      rcases source.pull_cases with ⟨token, later, pulled, before⟩ |
        ⟨later, pulled, before, after⟩ | ⟨cause, later, pulled, before, after⟩
      · have advanced : advance ⟨none, source, taken⟩ =
            (.ok (some token), ⟨none, later, taken ++ [token]⟩) := by simp only [advance, pulled]
        rw [advanced, before]
        refine ⟨rfl, ?_⟩
        show taken ++ [token] ++ later.scan.tokens = taken ++ source.scan.tokens
        rw [before, ← List.append_cons]
        rfl
      · have advanced : advance ⟨none, source, taken⟩ = (.ok none, ⟨none, later, taken⟩) := by
          simp only [advance, pulled]
        rw [advanced, before]
        exact follows_at_end source later taken _ (by rw [before]) after
      · have advanced : advance ⟨none, source, taken⟩ = (.error cause, ⟨none, later, taken⟩) := by
          simp only [advance, pulled]
        rw [advanced, before]
        exact follows_at_end source later taken _ (by rw [before]) after

theorem length_advance_lt (s after : Stream) (token : Token)
    (run : s.advance = (.ok (some token), after)) :
    after.scan.tokens.length < s.scan.tokens.length := by
  have agrees := s.advance_follows.agrees
  rw [run] at agrees
  rw [Scan.cons_of_advance _ _ _ agrees.symm]
  exact Nat.lt_succ_self _

/-! ## Data -/

/-- Reads on inside a list, as the cursor does, but with one token after another. -/
def collect (s : Stream) (done : List Datum) (outer : List (List Datum)) :
    Except Malformed Datum × Stream :=
  match _h : s.advance with
  | (.error cause, after) => (.error cause, after)
  | (.ok none, after) => (.error .unclosed, after)
  | (.ok (some .opening), after) => after.collect [] (done :: outer)
  | (.ok (some .closing), after) =>
    match outer with
    | [] => (.ok (.list done.reverse), after)
    | above :: outer => after.collect (.list done.reverse :: above) outer
  | (.ok (some (.atom name)), after) =>
    match Datum.ofAtom name with
    | .error cause => (.error cause, after)
    | .ok d => after.collect (d :: done) outer
termination_by s.scan.tokens.length
decreasing_by all_goals exact s.length_advance_lt after _ _h

/-- The next datum; nothing at the end. -/
def next (s : Stream) : Except Malformed (Option Datum) × Stream :=
  match s.peek with
  | (.error cause, after) => (.error cause, after)
  | (.ok none, after) => (.ok none, after)
  | (.ok (some (.atom name)), after) => ((Datum.ofAtom name).map some, after.advance.2)
  | (.ok (some .closing), after) => (.error .unopened, after)
  | (.ok (some .opening), after) =>
    let (result, after) := after.advance.2.collect [] []
    (result.map some, after)

theorem collect_follows (s : Stream) (done : List Datum) (outer : List (List Datum)) :
    s.Follows (s.collect done outer) (Scan.collect s.scan.fault done outer s.scan.tokens) := by
  fun_induction collect s done outer with
  | case1 s done outer cause after run =>
      have step := run ▸ s.advance_follows
      obtain ⟨before, ended⟩ := Scan.eq_of_advance_error _ _ _ step.agrees.symm
      rw [before]
      exact ⟨Prod.ext rfl ended, step.takes⟩
  | case2 s done outer after run =>
      have step := run ▸ s.advance_follows
      obtain ⟨before, ended⟩ := Scan.eq_of_advance_none _ _ step.agrees.symm
      rw [before]
      exact ⟨Prod.ext rfl ended, step.takes⟩
  | case3 s done outer after run ih =>
      have step := run ▸ s.advance_follows
      rw [Scan.cons_of_advance _ _ _ step.agrees.symm]
      exact step.trans ih
  | case4 s done after run =>
      have step := run ▸ s.advance_follows
      rw [Scan.cons_of_advance _ _ _ step.agrees.symm]
      exact ⟨rfl, step.takes⟩
  | case5 s done after run above outer ih =>
      have step := run ▸ s.advance_follows
      rw [Scan.cons_of_advance _ _ _ step.agrees.symm]
      rw [List.unattach_reverse, List.unattach_attach] at ih
      exact step.trans ih
  | case6 s done outer name after run cause fails =>
      have step := run ▸ s.advance_follows
      rw [Scan.cons_of_advance _ _ _ step.agrees.symm]
      refine ⟨?_, step.takes⟩
      simp [Scan.collect, Scan.cons, fails]
  | case7 s done outer name after run d value ih =>
      have step := run ▸ s.advance_follows
      rw [Scan.cons_of_advance _ _ _ step.agrees.symm]
      have follows := step.trans ih
      simpa [Scan.collect, Scan.cons, value] using follows

/-- What is left when the first token is taken. -/
theorem scan_advance (s : Stream) (token : Token) (rest : Scan)
    (split : s.scan = Scan.cons token rest) : s.advance.2.scan = rest := by
  have agrees := s.advance_follows.agrees
  rw [split] at agrees
  exact congrArg Prod.snd agrees

theorem next_follows (s : Stream) : s.Follows s.next s.scan.next := by
  have peeked := s.peek_follows.1
  unfold next
  split
  · rename_i cause after run
    rw [run] at peeked
    obtain ⟨before, ended⟩ := Scan.eq_of_peek_error _ _ _ peeked.agrees.symm
    rw [before]
    exact ⟨Prod.ext rfl ended, peeked.takes⟩
  · rename_i after run
    rw [run] at peeked
    obtain ⟨before, ended⟩ := Scan.eq_of_peek_none _ _ peeked.agrees.symm
    rw [before]
    exact ⟨Prod.ext rfl ended, peeked.takes⟩
  · rename_i name after run
    rw [run] at peeked
    obtain ⟨rest, before, same⟩ := Scan.cons_of_peek _ _ _ peeked.agrees.symm
    have taken := after.scan_advance _ rest (same.trans before)
    rw [before]
    exact ⟨Prod.ext rfl taken, after.advance_follows.takes.trans peeked.takes⟩
  · rename_i after run
    rw [run] at peeked
    obtain ⟨rest, before, same⟩ := Scan.cons_of_peek _ _ _ peeked.agrees.symm
    refine ⟨?_, peeked.takes⟩
    rw [same, before]
    rfl
  · rename_i after run
    rw [run] at peeked
    obtain ⟨rest, before, same⟩ := Scan.cons_of_peek _ _ _ peeked.agrees.symm
    have taken := after.scan_advance _ rest (same.trans before)
    have inside := after.advance.2.collect_follows [] []
    rw [taken] at inside
    rw [before]
    refine ⟨?_, inside.takes.trans (after.advance_follows.takes.trans peeked.takes)⟩
    show _ = ((Scan.collect rest.fault [] [] rest.tokens).1.map some,
      (Scan.collect rest.fault [] [] rest.tokens).2)
    rw [← inside.agrees]

theorem length_next_lt (s after : Stream) (d : Datum) (run : s.next = (.ok (some d), after)) :
    after.scan.tokens.length < s.scan.tokens.length := by
  have agrees := s.next_follows.agrees
  rw [run] at agrees
  exact s.scan.length_next_lt after.scan d agrees.symm

theorem scan_of_peek (s after : Stream) (token : Token) (run : s.peek = (.ok (some token), after)) :
    after.scan = s.scan := by
  have agrees := s.peek_follows.1.agrees
  rw [run] at agrees
  obtain ⟨rest, -, same⟩ := Scan.cons_of_peek _ _ _ agrees.symm
  exact same

/-- All data up to the end, one after another. -/
def all (s : Stream) : Except Malformed (List Datum) × Stream :=
  match _p : s.peek with
  | (.error cause, after) => (.error cause, after)
  | (.ok none, after) => (.ok [], after)
  | (.ok (some _), after) =>
    match _h : after.next with
    | (.error cause, later) => (.error cause, later)
    | (.ok none, later) => (.ok [], later) -- there is a token, so this does not come about
    | (.ok (some d), later) =>
      let (more, last) := later.all
      (more.map (d :: ·), last)
termination_by s.scan.tokens.length
decreasing_by
  rw [← s.scan_of_peek after _ _p]
  exact after.length_next_lt later d _h

theorem all_follows (s : Stream) : s.Follows s.all (s.scan.forms.all, s.scan.forms.rest) := by
  fun_induction all s with
  | case1 s cause after run =>
      have peeked := run ▸ s.peek_follows.1
      obtain ⟨before, ended⟩ := Scan.eq_of_peek_error _ _ _ peeked.agrees.symm
      have forms := Scan.forms_of_error ⟨[], some cause⟩ ⟨[], none⟩ cause rfl
      rw [before, forms]
      exact ⟨Prod.ext rfl ended, peeked.takes⟩
  | case2 s after run =>
      have peeked := run ▸ s.peek_follows.1
      obtain ⟨before, ended⟩ := Scan.eq_of_peek_none _ _ peeked.agrees.symm
      have forms := Scan.forms_of_none ⟨[], none⟩ ⟨[], none⟩ rfl
      rw [before, forms]
      exact ⟨Prod.ext rfl ended, peeked.takes⟩
  | case3 s token after run cause later fails =>
      have peeked := run ▸ s.peek_follows.1
      have follows := fails ▸ after.next_follows
      rw [s.scan_of_peek after token run] at follows
      rw [Scan.forms_of_error _ later.scan cause follows.agrees.symm]
      exact ⟨rfl, follows.takes.trans peeked.takes⟩
  | case4 s token after run later ends =>
      have peeked := run ▸ s.peek_follows.1
      have follows := ends ▸ after.next_follows
      rw [s.scan_of_peek after token run] at follows
      rw [Scan.forms_of_none _ later.scan follows.agrees.symm]
      exact ⟨rfl, follows.takes.trans peeked.takes⟩
  | case5 s token after run d later reads more last rest ih =>
      have peeked := run ▸ s.peek_follows.1
      have follows := reads ▸ after.next_follows
      rw [s.scan_of_peek after token run] at follows
      rw [Scan.forms_of_some _ later.scan d follows.agrees.symm]
      rw [rest] at ih
      refine ⟨?_, ih.takes.trans (follows.takes.trans peeked.takes)⟩
      have answers : more = later.scan.forms.all := congrArg Prod.fst ih.agrees
      have left : last.scan = later.scan.forms.rest := congrArg Prod.snd ih.agrees
      refine Prod.ext ?_ left
      show more.map (d :: ·) = _
      rw [answers, Forms.all_cons]

end Stream

end ParenCalc
