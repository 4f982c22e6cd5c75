import ParenCalc.Proofs.Datum.Stream
import ParenCalc.Proofs.Token.Marks
/-!
# The stream is a cursor

Whatever is asked of a stream, in whatever order and with whatever outcome: the tokens that it has
handed out and those that are still to come are together the tokens of its text.  The fault of a
text shows once, when the end of the tokens before it is met for the first time, and after that the
text is at its end.
-/
set_option autoImplicit false

namespace ParenCalc

/-! ## Readings -/

/-- What can be asked of a stream or of a cursor. -/
inductive Reading
  | peek
  | advance
  | next
  | all

inductive Reading.Answer
  | token (outcome : Except Malformed (Option Token))
  | datum (outcome : Except Malformed (Option Datum))
  | data (outcome : Except Malformed (List Datum))

namespace Reading

/-- The answer to a reading that meets a fault. -/
def failed (cause : Malformed) : Reading → Answer
  | .peek | .advance => .token (.error cause)
  | .next => .datum (.error cause)
  | .all => .data (.error cause)

/-- The answer to a reading at the end of the text. -/
def ended : Reading → Answer
  | .peek | .advance => .token (.ok none)
  | .next => .datum (.ok none)
  | .all => .data (.ok [])

/-- The answers to some readings, one after another, and what they leave. -/
def inTurn {σ : Type} (perform : σ → Reading → Answer × σ) (s : σ) :
    List Reading → List Answer × σ
  | [] => ([], s)
  | reading :: rest =>
    let (answer, s) := perform s reading
    let (answers, s) := inTurn perform s rest
    (answer :: answers, s)

end Reading

def Scan.perform (s : Scan) : Reading → Reading.Answer × Scan
  | .peek => (.token s.peek.1, s.peek.2)
  | .advance => (.token s.advance.1, s.advance.2)
  | .next => (.datum s.next.1, s.next.2)
  | .all => (.data s.forms.all, s.forms.rest)

def Scan.run (s : Scan) (readings : List Reading) : List Reading.Answer × Scan :=
  Reading.inTurn Scan.perform s readings

theorem Scan.run_cons (s : Scan) (reading : Reading) (rest : List Reading) :
    s.run (reading :: rest) = ((s.perform reading).1 :: ((s.perform reading).2.run rest).1,
      ((s.perform reading).2.run rest).2) := rfl

def Stream.perform (s : Stream) : Reading → Reading.Answer × Stream
  | .peek => (.token s.peek.1, s.peek.2)
  | .advance => (.token s.advance.1, s.advance.2)
  | .next => (.datum s.next.1, s.next.2)
  | .all => (.data s.all.1, s.all.2)

def Stream.run (s : Stream) (readings : List Reading) : List Reading.Answer × Stream :=
  Reading.inTurn Stream.perform s readings

namespace Stream

theorem Follows.answer {α β : Type} (f : α → β) {s : Stream} {streamed : α × Stream}
    {scanned : α × Scan} (follows : s.Follows streamed scanned) :
    s.Follows (f streamed.1, streamed.2) (f scanned.1, scanned.2) :=
  ⟨by rw [← follows.agrees], follows.takes⟩

theorem perform_follows (s : Stream) (reading : Reading) :
    s.Follows (s.perform reading) (s.scan.perform reading) := by
  cases reading with
  | peek => exact s.peek_follows.1.answer Reading.Answer.token
  | advance => exact s.advance_follows.answer Reading.Answer.token
  | next => exact s.next_follows.answer Reading.Answer.datum
  | all => exact s.all_follows.answer Reading.Answer.data

theorem run_follows (readings : List Reading) (s : Stream) :
    s.Follows (s.run readings) (s.scan.run readings) := by
  induction readings generalizing s with
  | nil => exact ⟨rfl, rfl⟩
  | cons reading rest ih =>
      have first := s.perform_follows reading
      have later := first.trans (ih (s.perform reading).2)
      have left : (s.perform reading).2.scan = (s.scan.perform reading).2 :=
        congrArg Prod.snd first.agrees
      rw [left] at later
      have answer : (s.perform reading).1 = (s.scan.perform reading).1 :=
        congrArg Prod.fst first.agrees
      show s.Follows ((s.perform reading).1 :: ((s.perform reading).2.run rest).1,
        ((s.perform reading).2.run rest).2) _
      rw [answer]
      exact later.answer ((s.scan.perform reading).1 :: ·)

end Stream

namespace Scan

/-! ## The end of a text -/

theorem perform_ended (reading : Reading) :
    perform ⟨[], none⟩ reading = (reading.ended, ⟨[], none⟩) := by
  cases reading with
  | peek | advance | next => rfl
  | all =>
      have forms := forms_of_none ⟨[], none⟩ ⟨[], none⟩ rfl
      simp only [perform, forms]
      rfl

theorem run_ended (readings : List Reading) :
    run ⟨[], none⟩ readings = (readings.map Reading.ended, ⟨[], none⟩) := by
  induction readings with
  | nil => rfl
  | cons reading rest ih =>
      rw [run_cons, perform_ended, ih]
      rfl

/-! ## Readings of tokens without a fault -/

/-- A reading that has met a code point which no token begins with. -/
def isLexical {α : Type} : Except Malformed α → Bool
  | .error (.unexpected _ _) => true
  | _ => false

theorem isLexical_map {α β : Type} (f : α → β) (x : Except Malformed α) :
    isLexical (x.map f) = isLexical x := by
  cases x with
  | ok a => rfl
  | error cause => cases cause <;> rfl

theorem isLexical_ofAtom (name : Text) : isLexical (Datum.ofAtom name) = false := by
  unfold Datum.ofAtom
  split <;> split <;> rfl

/-- The outcome is none of a faulty text, and there is no fault in what is left. -/
def Clean {α : Type} (run : Except Malformed α × Scan) : Prop :=
  isLexical run.1 = false ∧ run.2.fault = none

theorem clean_collect (done : List Datum) (outer : List (List Datum)) (tokens : List Token) :
    Clean (collect none done outer tokens) := by
  induction tokens generalizing done outer with
  | nil => exact ⟨rfl, rfl⟩
  | cons token rest ih =>
      cases token with
      | opening => exact ih [] (done :: outer)
      | closing =>
          cases outer with
          | nil => exact ⟨rfl, rfl⟩
          | cons above outer => exact ih (.list done.reverse :: above) outer
      | atom name =>
          have atom := isLexical_ofAtom name
          cases value : Datum.ofAtom name with
          | ok d =>
              simp only [collect, value]
              exact ih (d :: done) outer
          | error mistake =>
              rw [value] at atom
              simp only [collect, value]
              exact ⟨atom, rfl⟩

theorem clean_next (tokens : List Token) : Clean (next ⟨tokens, none⟩) := by
  cases tokens with
  | nil => exact ⟨rfl, rfl⟩
  | cons token rest =>
      cases token with
      | closing => exact ⟨rfl, rfl⟩
      | atom name => exact ⟨(isLexical_map some _).trans (isLexical_ofAtom name), rfl⟩
      | opening =>
          obtain ⟨outcome, left⟩ := clean_collect [] [] rest
          exact ⟨(isLexical_map some _).trans outcome, left⟩

theorem clean_forms (tokens : List Token) :
    Clean ((forms ⟨tokens, none⟩).all, (forms ⟨tokens, none⟩).rest) := by
  have first := clean_next tokens
  match run : next ⟨tokens, none⟩ with
  | (.error mistake, after) =>
      rw [run] at first
      rw [forms_of_error _ after mistake run]
      have outcome := isLexical_map Option.toList (.error mistake : Except Malformed (Option Datum))
      exact ⟨outcome.trans first.1, first.2⟩
  | (.ok none, after) =>
      rw [run] at first
      rw [forms_of_none _ after run]
      exact ⟨rfl, first.2⟩
  | (.ok (some d), after) =>
      rw [run] at first
      have shorter : after.tokens.length < tokens.length := length_next_lt _ after d run
      have later := clean_forms after.tokens
      have same : after = ⟨after.tokens, none⟩ := eq_of_tokens _ _ rfl first.2
      rw [← same] at later
      rw [forms_of_some _ after d run, Forms.all_cons]
      exact ⟨(isLexical_map _ _).trans later.1, later.2⟩
termination_by tokens.length

/-! ## A fault behind the tokens -/

/-- Whether a reading has ended for want of another token. -/
def lacksToken {α : Type} : Except Malformed α → Bool
  | .error .unclosed => true
  | _ => false

def lacksItem {α : Type} : Except Malformed (Option α) → Bool
  | .ok none => true
  | outcome => lacksToken outcome

def lacksItems {α : Type} : Except Malformed (List α) → Bool
  | .ok _ => true
  | outcome => lacksToken outcome

/-- What becomes of a reading of tokens without a fault when there is a fault behind them: it is the
same, unless it has met the end of the tokens. -/
def behind {α : Type} (cause : Malformed) (lacks : Except Malformed α → Bool)
    (clean : Except Malformed α × Scan) : Except Malformed α × Scan :=
  if lacks clean.1 then (.error cause, ⟨[], none⟩) else (clean.1, ⟨clean.2.tokens, some cause⟩)

theorem lacksToken_ofAtom (name : Text) : lacksToken (Datum.ofAtom name) = false := by
  unfold Datum.ofAtom
  split <;> split <;> rfl

theorem collect_behind (cause : Malformed) (done : List Datum) (outer : List (List Datum))
    (tokens : List Token) :
    collect (some cause) done outer tokens =
      behind cause lacksToken (collect none done outer tokens) := by
  induction tokens generalizing done outer with
  | nil => rfl
  | cons token rest ih =>
      cases token with
      | opening => exact ih [] (done :: outer)
      | closing =>
          cases outer with
          | nil => rfl
          | cons above outer => exact ih (.list done.reverse :: above) outer
      | atom name =>
          have noLack := lacksToken_ofAtom name
          cases value : Datum.ofAtom name with
          | ok d =>
              simp only [collect, value]
              exact ih (d :: done) outer
          | error mistake =>
              rw [value] at noLack
              have same : lacksToken (.error mistake) = false := noLack
              simp [collect, value, behind, same]

theorem behind_map {α β : Type} (cause : Malformed) (f : α → β) (lacks : Except Malformed α → Bool)
    (lacksMapped : Except Malformed β → Bool) (same : ∀ x, lacksMapped (x.map f) = lacks x)
    (clean : Except Malformed α × Scan) :
    behind cause lacksMapped (clean.1.map f, clean.2) =
      ((behind cause lacks clean).1.map f, (behind cause lacks clean).2) := by
  unfold behind
  rw [same]
  cases lacks clean.1 <;> rfl

theorem lacksItem_map {α : Type} (x : Except Malformed α) :
    lacksItem (x.map some) = lacksToken x := by
  cases x with
  | ok d => rfl
  | error cause => cases cause <;> rfl

theorem lacksItems_map {α : Type} (d : α) (x : Except Malformed (List α)) :
    lacksItems (x.map (d :: ·)) = lacksItems x := by
  cases x with
  | ok more => rfl
  | error cause => cases cause <;> rfl

theorem lacksItems_error (mistake : Malformed) :
    lacksItems (.error mistake : Except Malformed (List Datum)) =
      lacksItem (.error mistake : Except Malformed (Option Datum)) := by
  cases mistake <;> rfl

theorem next_behind (cause : Malformed) (tokens : List Token) :
    next ⟨tokens, some cause⟩ = behind cause lacksItem (next ⟨tokens, none⟩) := by
  cases tokens with
  | nil => rfl
  | cons token rest =>
      cases token with
      | closing => rfl
      | atom name =>
          have mapped := behind_map cause some lacksToken lacksItem lacksItem_map
            (Datum.ofAtom name, ⟨rest, none⟩)
          have stays : behind cause lacksToken (Datum.ofAtom name, ⟨rest, none⟩) =
              (Datum.ofAtom name, ⟨rest, some cause⟩) := if_neg (by simp [lacksToken_ofAtom])
          rw [stays] at mapped
          exact mapped.symm
      | opening =>
          have mapped := behind_map cause some lacksToken lacksItem lacksItem_map
            (collect none [] [] rest)
          rw [← collect_behind] at mapped
          exact mapped.symm

theorem forms_behind (cause : Malformed) (tokens : List Token) :
    ((forms ⟨tokens, some cause⟩).all, (forms ⟨tokens, some cause⟩).rest) =
      behind cause lacksItems ((forms ⟨tokens, none⟩).all, (forms ⟨tokens, none⟩).rest) := by
  have first := next_behind cause tokens
  match run : next ⟨tokens, none⟩ with
  | (.error mistake, after) =>
      rw [run] at first
      rw [forms_of_error _ after mistake run]
      show _ = behind cause lacksItems (.error mistake, after)
      unfold behind at first ⊢
      rw [lacksItems_error]
      split at first
      · rename_i lacks
        rw [forms_of_error _ ⟨[], none⟩ cause first, if_pos lacks]
        rfl
      · rename_i goesOn
        rw [forms_of_error _ ⟨after.tokens, some cause⟩ mistake first, if_neg goesOn]
        rfl
  | (.ok none, after) =>
      rw [run] at first
      rw [forms_of_none _ after run, forms_of_error _ ⟨[], none⟩ cause first]
      rfl
  | (.ok (some d), after) =>
      rw [run] at first
      have clean := clean_next tokens
      rw [run] at clean
      have clear : after = ⟨after.tokens, none⟩ := eq_of_tokens _ _ rfl clean.2
      have shorter : after.tokens.length < tokens.length := length_next_lt _ after d run
      have ih := forms_behind cause after.tokens
      rw [← clear] at ih
      rw [forms_of_some _ after d run, forms_of_some _ ⟨after.tokens, some cause⟩ d first,
        Forms.all_cons, Forms.all_cons]
      have mapped := behind_map cause (d :: ·) lacksItems lacksItems (lacksItems_map d)
        (after.forms.all, after.forms.rest)
      rw [← ih] at mapped
      exact mapped.symm
termination_by tokens.length

theorem peek_behind (cause : Malformed) (tokens : List Token) :
    peek ⟨tokens, some cause⟩ = behind cause lacksItem (peek ⟨tokens, none⟩) := by
  cases tokens <;> rfl

theorem advance_behind (cause : Malformed) (tokens : List Token) :
    advance ⟨tokens, some cause⟩ = behind cause lacksItem (advance ⟨tokens, none⟩) := by
  cases tokens <;> rfl

end Scan

namespace Reading.Answer

def isLexical : Answer → Bool
  | .token outcome => Scan.isLexical outcome
  | .datum outcome => Scan.isLexical outcome
  | .data outcome => Scan.isLexical outcome

/-- Whether the answer, to a reading of tokens without a fault, has met their end. -/
def meetsEnd : Answer → Bool
  | .token outcome => Scan.lacksItem outcome
  | .datum outcome => Scan.lacksItem outcome
  | .data outcome => Scan.lacksItems outcome

end Reading.Answer

namespace Scan

theorem clean_perform (tokens : List Token) (reading : Reading) :
    (perform ⟨tokens, none⟩ reading).1.isLexical = false ∧
      (perform ⟨tokens, none⟩ reading).2.fault = none := by
  cases reading with
  | peek | advance => cases tokens <;> exact ⟨rfl, rfl⟩
  | next => exact clean_next tokens
  | all => exact clean_forms tokens

theorem behind_answer {α : Type} (answer : Except Malformed α → Reading.Answer)
    (lacks : Except Malformed α → Bool) (cause : Malformed) (clean : Except Malformed α × Scan) :
    (answer (behind cause lacks clean).1, (behind cause lacks clean).2) =
      if lacks clean.1 then (answer (.error cause), ⟨[], none⟩)
      else (answer clean.1, ⟨clean.2.tokens, some cause⟩) := by
  unfold behind
  split <;> rfl

/-- A reading meets the fault behind some tokens exactly when it would meet their end. -/
theorem perform_behind (cause : Malformed) (tokens : List Token) (reading : Reading) :
    perform ⟨tokens, some cause⟩ reading =
      if (perform ⟨tokens, none⟩ reading).1.meetsEnd then (reading.failed cause, ⟨[], none⟩)
      else ((perform ⟨tokens, none⟩ reading).1,
        ⟨(perform ⟨tokens, none⟩ reading).2.tokens, some cause⟩) := by
  cases reading with
  | peek =>
      have answered := behind_answer .token lacksItem cause (peek ⟨tokens, none⟩)
      rwa [← peek_behind] at answered
  | advance =>
      have answered := behind_answer .token lacksItem cause (advance ⟨tokens, none⟩)
      rwa [← advance_behind] at answered
  | next =>
      have answered := behind_answer .datum lacksItem cause (next ⟨tokens, none⟩)
      rwa [← next_behind] at answered
  | all =>
      have answered := behind_answer .data lacksItems cause
        ((forms ⟨tokens, none⟩).all, (forms ⟨tokens, none⟩).rest)
      rwa [← forms_behind] at answered

/-- How the fault behind some tokens shows in the answers to some readings.  They are the answers
for the tokens alone, none of which meets their end, and the fault is still to come; or they are so
up to the first reading that meets the end of the tokens, this reading fails with the fault, and for
the readings after it the text is at its end. -/
def FaultShows (tokens : List Token) (cause : Malformed) (readings : List Reading)
    (answers : List Reading.Answer) (left : Scan) : Prop :=
  (answers = (run ⟨tokens, none⟩ readings).1 ∧
    (∀ answer ∈ answers, answer.meetsEnd = false ∧ answer.isLexical = false) ∧
    left.fault = some cause) ∨
  ∃ before reading after, readings = before ++ reading :: after ∧
    answers = (run ⟨tokens, none⟩ before).1 ++ reading.failed cause :: after.map Reading.ended ∧
    (∀ answer ∈ (run ⟨tokens, none⟩ before).1,
      answer.meetsEnd = false ∧ answer.isLexical = false) ∧
    ((run ⟨tokens, none⟩ before).2.perform reading).1.meetsEnd = true ∧
    left = ⟨[], none⟩

theorem faultShows_run (cause : Malformed) (readings : List Reading) (tokens : List Token) :
    FaultShows tokens cause readings (run ⟨tokens, some cause⟩ readings).1
      (run ⟨tokens, some cause⟩ readings).2 := by
  induction readings generalizing tokens with
  | nil => exact .inl ⟨rfl, fun answer member => absurd member List.not_mem_nil, rfl⟩
  | cons reading rest ih =>
      have step := perform_behind cause tokens reading
      obtain ⟨notLexical, clear⟩ := clean_perform tokens reading
      obtain ⟨⟨answer, more, fault⟩, first⟩ : ∃ after, perform ⟨tokens, none⟩ reading = after :=
        ⟨_, rfl⟩
      rw [first] at step notLexical clear
      simp only at notLexical clear
      subst clear
      have clean (readings : List Reading) : run ⟨tokens, none⟩ (reading :: readings) =
          (answer :: (run ⟨more, none⟩ readings).1, (run ⟨more, none⟩ readings).2) := by
        rw [run_cons, first]
      cases meets : answer.meetsEnd with
      | true =>
          -- the fault shows here, and nothing is left for the readings after this one
          rw [meets, if_pos rfl] at step
          rw [run_cons, step, run_ended]
          refine .inr ⟨[], reading, rest, rfl, rfl, fun answer member => ?_, ?_, rfl⟩
          · exact absurd member List.not_mem_nil
          · show (perform ⟨tokens, none⟩ reading).1.meetsEnd = true
            rw [first, meets]
      | false =>
          rw [meets, if_neg Bool.false_ne_true] at step
          rw [run_cons, step]
          have here : answer.meetsEnd = false ∧ answer.isLexical = false := ⟨meets, notLexical⟩
          rcases ih more with ⟨answers, quiet, left⟩ |
            ⟨before, failing, after, split, answers, quiet, ends, left⟩
          · refine .inl ⟨?_, ?_, left⟩
            · rw [clean, ← answers]
            · exact List.forall_mem_cons.mpr ⟨here, quiet⟩
          · refine .inr ⟨reading :: before, failing, after, ?_, ?_, ?_, ?_, left⟩
            · rw [split, List.cons_append]
            · rw [clean, List.cons_append, ← answers]
            · rw [clean]
              exact List.forall_mem_cons.mpr ⟨here, quiet⟩
            · rwa [clean]

theorem not_isLexical_run (readings : List Reading) (tokens : List Token) :
    ∀ answer ∈ (run ⟨tokens, none⟩ readings).1, answer.isLexical = false := by
  induction readings generalizing tokens with
  | nil => exact fun answer member => absurd member List.not_mem_nil
  | cons reading rest ih =>
      obtain ⟨notLexical, clear⟩ := clean_perform tokens reading
      have same : (perform ⟨tokens, none⟩ reading).2 =
          ⟨(perform ⟨tokens, none⟩ reading).2.tokens, none⟩ := eq_of_tokens _ _ rfl clear
      rw [run_cons, same]
      exact List.forall_mem_cons.mpr ⟨notLexical, ih _⟩

theorem peek_stays (s : Scan) (token? : Option Token) (peeked : s.peek.1 = .ok token?) :
    s.peek.2 = s := by
  obtain ⟨tokens, fault⟩ := s
  cases tokens with
  | nil => cases fault <;> simp_all [peek]
  | cons token rest => rfl

theorem peek_eq_advance (s : Scan) : s.peek.1 = s.advance.1 := by
  obtain ⟨tokens, fault⟩ := s
  cases tokens <;> rfl

end Scan

/-! ## The cursor -/

/-- The stream is somewhere in these tokens: those that it has handed out and those to come are all
of them.  A peek takes none and tells what an advance would; an advance takes the one that it
answers with, and a datum that is read those which render it; at a parenthesis that closes nothing
none is taken. -/
structure Stream.IsWithin (s : Stream) (tokens : List Token) : Prop where
  whole : s.taken ++ s.scan.tokens = tokens
  peek_takes : s.peek.2.taken = s.taken
  peek_tells : s.peek.1 = s.advance.1
  peek_keeps : ∀ token?, s.peek.1 = .ok token? → s.peek.2.advance.1 = .ok token?
  advance_takes : ∀ token after, s.advance = (.ok (some token), after) →
    after.taken = s.taken ++ [token]
  next_takes : ∀ d after, s.next = (.ok (some d), after) →
    ∃ own, Renders own d ∧ after.taken = s.taken ++ own
  stray_stays : s.peek.1 = .ok (some .closing) →
    s.next.1 = .error .unopened ∧ s.next.2.taken = s.taken ∧ s.next.2.scan = s.scan

namespace Stream

theorem Follows.taken_eq {α : Type} {s : Stream} {streamed : α × Stream} {scanned : α × Scan}
    (follows : s.Follows streamed scanned) (own : List Token)
    (split : s.scan.tokens = own ++ streamed.2.scan.tokens) :
    streamed.2.taken = s.taken ++ own := by
  have takes := follows.takes
  rw [split, ← List.append_assoc] at takes
  exact List.append_cancel_right takes

theorem peek_answer (s : Stream) : s.peek.1 = s.scan.peek.1 :=
  congrArg Prod.fst s.peek_follows.1.agrees

theorem peek_left (s : Stream) : s.peek.2.scan = s.scan.peek.2 :=
  congrArg Prod.snd s.peek_follows.1.agrees

theorem advance_answer (s : Stream) : s.advance.1 = s.scan.advance.1 :=
  congrArg Prod.fst s.advance_follows.agrees

theorem advance_of_peek (s : Stream) (token? : Option Token) (peeked : s.peek.1 = .ok token?) :
    s.peek.2.advance.1 = .ok token? := by
  rw [peek_answer] at peeked
  have stays := s.scan.peek_stays token? peeked
  rw [advance_answer, peek_left, stays, ← Scan.peek_eq_advance, peeked]

theorem advance_taken (s : Stream) (token : Token) (after : Stream)
    (run : s.advance = (.ok (some token), after)) : after.taken = s.taken ++ [token] := by
  have follows := run ▸ s.advance_follows
  have split := Scan.cons_of_advance _ _ _ follows.agrees.symm
  exact follows.taken_eq [token] (congrArg Scan.tokens split)

theorem next_taken (s : Stream) (d : Datum) (after : Stream)
    (run : s.next = (.ok (some d), after)) :
    ∃ own, Renders own d ∧ after.taken = s.taken ++ own := by
  have follows := run ▸ s.next_follows
  obtain ⟨own, rendered, split, -⟩ := Scan.next_sound _ _ _ follows.agrees.symm
  exact ⟨own, rendered, follows.taken_eq own split⟩

theorem next_of_stray (s : Stream) (stray : s.peek.1 = .ok (some .closing)) :
    s.next.1 = .error .unopened ∧ s.next.2.taken = s.taken ∧ s.next.2.scan = s.scan := by
  have follows := s.next_follows
  obtain ⟨rest, split, -⟩ := Scan.cons_of_peek s.scan s.scan.peek.2 .closing
    (Prod.ext (s.peek_answer.symm.trans stray) rfl)
  have stays : s.scan.next = (.error .unopened, s.scan) := by
    rw [split]
    rfl
  have agrees := follows.agrees.trans stays
  have left : s.next.2.scan = s.scan := congrArg Prod.snd agrees
  refine ⟨congrArg Prod.fst agrees, ?_, left⟩
  have taken := follows.taken_eq [] (by rw [left]; rfl)
  rwa [List.append_nil] at taken

theorem isWithin_of_whole (s : Stream) (tokens : List Token)
    (whole : s.taken ++ s.scan.tokens = tokens) : s.IsWithin tokens where
  whole := whole
  peek_takes := s.peek_follows.2
  peek_tells := by rw [peek_answer, advance_answer, Scan.peek_eq_advance]
  peek_keeps := s.advance_of_peek
  advance_takes := s.advance_taken
  next_takes := s.next_taken
  stray_stays := s.next_of_stray

end Stream

/-- Whatever has been asked of the stream of a text: it is somewhere in the tokens of the text, and
it has answered as the cursor does that has scanned the text before.  A fault of the text shows in
the first answer that would otherwise have met the end of the tokens, and in no other; at later
readings the text is at its end.  Without a fault there is no such answer. -/
theorem stream_is_cursor (text : Text) (readings : List Reading) :
    let scan := Scan.ofText text
    let answers := ((Stream.ofText text).run readings).1
    let stream := ((Stream.ofText text).run readings).2
    stream.IsWithin scan.tokens ∧
    (answers, stream.scan) = scan.run readings ∧
    (scan.fault = none → ∀ answer ∈ answers, answer.isLexical = false) ∧
    (∀ cause, scan.fault = some cause → (∃ i c, cause = .unexpected i c) ∧
      Scan.FaultShows scan.tokens cause readings answers stream.scan) := by
  intro scan answers stream
  have follows := Stream.run_follows readings (Stream.ofText text)
  have sameAnswers : answers = (scan.run readings).1 := congrArg Prod.fst follows.agrees
  have sameScan : stream.scan = (scan.run readings).2 := congrArg Prod.snd follows.agrees
  have whole : stream.taken ++ stream.scan.tokens = scan.tokens := follows.takes
  refine ⟨stream.isWithin_of_whole _ whole, follows.agrees, ?_, ?_⟩
  · intro clear
    have all : scan = ⟨scan.tokens, none⟩ := Scan.eq_of_tokens _ _ rfl clear
    rw [sameAnswers, all]
    exact Scan.not_isLexical_run readings scan.tokens
  · intro cause faulty
    obtain ⟨i, c, unexpected, -⟩ := (Scan.fault_eq_some_iff text cause).mp faulty
    refine ⟨⟨i, c, unexpected⟩, ?_⟩
    have all : scan = ⟨scan.tokens, some cause⟩ := Scan.eq_of_tokens _ _ rfl faulty
    have shows := Scan.faultShows_run cause readings scan.tokens
    rwa [← all, ← sameAnswers, ← sameScan] at shows

end ParenCalc
