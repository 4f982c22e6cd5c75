import ParenCalc.Json.Parse
import ParenCalc.Proofs.Number.Digits
/-!
# The limits of reading JSON

Reading a text ends in a value, in a refusal, or past one of the limits.  In the last case the text
shows it: it has more digits in a row than an integer may have, or more opening brackets than there is
room for.  The rounds that the items of an array are read in never run out, because every reader
leaves a suffix of what it was given and each round takes a comma from it.
-/
set_option autoImplicit false

namespace ParenCalc.Json

open Digits (Valid Whole text)

/-! ## What a text shows -/

def isOpening (c : CodePoint) : Bool := c = '[' || c = '\x7b'

/-- What a text has in it when reading it with some room goes past a limit. -/
def Overrun.Shown (room : Nat) (t : Text) : Overrun → Prop
  | .digits => ∃ run, run <:+: t ∧ Numeral.maxDigits < run.length ∧
      ∀ c ∈ run, c.isAsciiDigit = true
  | .nesting => room < t.countP isOpening

/-- A step that leaves a suffix of the text it was given, or refuses it, or goes past a limit that
the text shows. -/
def Step.Bounded {α : Type} (room : Nat) (t : Text) : Step α → Prop
  | .ok (_, after) => after.rest <:+ t
  | .error (.expected _ _) => True
  | .error (.overrun overrun) => overrun.Shown room t

theorem Overrun.shown_of_suffix (overrun : Overrun) (room : Nat) (t whole : Text)
    (suffix : t <:+ whole) (shown : overrun.Shown room t) : overrun.Shown room whole := by
  cases overrun with
  | digits =>
      obtain ⟨run, inside, long, digits⟩ := shown
      exact ⟨run, inside.trans suffix.isInfix, long, digits⟩
  | nesting => exact Nat.lt_of_lt_of_le shown (List.Sublist.countP_le suffix.sublist)

/-- A bracket that opens makes up for the room it takes. -/
theorem Overrun.shown_cons (overrun : Overrun) (room : Nat) (c : CodePoint) (t : Text)
    (opening : isOpening c = true) (shown : overrun.Shown room t) :
    overrun.Shown (room + 1) (c :: t) := by
  cases overrun with
  | digits =>
      obtain ⟨run, inside, long, digits⟩ := shown
      exact ⟨run, inside.trans (List.suffix_cons c t).isInfix, long, digits⟩
  | nesting =>
      show room + 1 < (c :: t).countP isOpening
      rw [List.countP_cons_of_pos opening]
      exact Nat.succ_lt_succ shown

namespace Step

variable {α β : Type} {room : Nat} {t : Text}

theorem bounded_of_suffix {whole : Text} (suffix : t <:+ whole) (step : Step α)
    (bounded : step.Bounded room t) : step.Bounded room whole := by
  match step, bounded with
  | .ok (_, after), bounded => exact List.IsSuffix.trans bounded suffix
  | .error (.expected _ _), _ => trivial
  | .error (.overrun overrun), bounded => exact overrun.shown_of_suffix room t whole suffix bounded

theorem bounded_error (e : ParseError) (bounded : Bounded room t (.error e : Step α)) :
    Bounded room t (.error e : Step β) := by
  cases e with
  | expected what position => trivial
  | overrun overrun => exact bounded

theorem bounded_map (f : α → β) (step : Step α) (bounded : step.Bounded room t) :
    Bounded room t (step.map fun found => (f found.1, found.2)) := by
  match step, bounded with
  | .ok (_, after), bounded => exact bounded
  | .error (.expected _ _), _ => trivial
  | .error (.overrun overrun), bounded => exact bounded

end Step

/-! ## Strings -/

theorem expected_of_unicodeEscape (position : Nat) (digits : Text) (refusal : ParseError)
    (run : unicodeEscape position digits = .error refusal) :
    ∃ what place, refusal = .expected what place := by
  unfold unicodeEscape at run
  split at run
  · exact ⟨_, _, (Except.error.inj run).symm⟩
  · split at run
    · exact ⟨_, _, (Except.error.inj run).symm⟩
    · split at run
      · unfold pairedHalf? at run
        split at run
        · split at run
          · exact ⟨_, _, (Except.error.inj run).symm⟩
          · simp [Except.map] at run
        · simp [Except.map] at run
      · simp at run

theorem bounded_readString (room start position : Nat) (t : Text) :
    (readString start position t).Bounded room t := by
  fun_induction readString start position t with
  | case1 position | case3 position | case4 position | case7 position => trivial
  | case2 position rest => exact List.suffix_cons _ _
  | case5 position rest refusal run =>
      obtain ⟨what, place, rfl⟩ := expected_of_unicodeEscape _ _ _ run
      trivial
  | case6 position rest d count run _ _ ih =>
      refine Step.bounded_of_suffix ?_ _ (Step.bounded_map (d :: ·) _ ih)
      exact (List.drop_suffix count rest).trans
        ((List.suffix_cons _ _).trans (List.suffix_cons _ _))
  | case8 position e rest _ d run _ _ ih =>
      exact Step.bounded_of_suffix ((List.suffix_cons _ _).trans (List.suffix_cons _ _)) _
        (Step.bounded_map (d :: ·) _ ih)
  | case9 position c rest _ _ _ ih =>
      exact Step.bounded_of_suffix (List.suffix_cons _ _) _ (Step.bounded_map (c :: ·) _ ih)

/-! ## Numbers -/

theorem digits_of_long_wholePart (t : Text) (long : 1 < (wholePart t).length) :
    wholePart t <:+: t ∧ ∀ c ∈ wholePart t, c.isAsciiDigit = true := by
  cases t with
  | nil => simp [wholePart] at long
  | cons c rest =>
      by_cases zero : c = CodePoint.ofChar '0'
      · simp [wholePart, zero] at long
      · rw [wholePart, if_neg zero]
        exact ⟨(List.takeWhile_prefix _).isInfix, List.all_eq_true.mp List.all_takeWhile⟩

theorem bounded_readNumber (room : Nat) (i : Input) : (readNumber i).Bounded room i.rest := by
  unfold readNumber
  generalize (if i.rest.take 1 = "-" then ("-" : Text) else []) = minus
  dsimp only
  split
  · trivial
  · split
    · split
      · rename_i long
        -- this is the only place where digits are counted
        have inside := List.drop_suffix minus.length i.rest
        obtain ⟨run, digits⟩ := digits_of_long_wholePart _ (Nat.lt_trans (by decide) long)
        exact ⟨_, run.trans inside.isInfix, long, digits⟩
      · split
        · exact List.drop_suffix _ _
        · trivial
    · split
      · exact List.drop_suffix _ _
      · trivial

theorem bounded_readScalar (room : Nat) (i : Input) : (readScalar i).Bounded room i.rest := by
  unfold readScalar
  split
  · exact List.drop_suffix _ _
  · exact bounded_readNumber room i

/-! ## Arrays and objects -/

theorem Input.skipBlanks_suffix (i : Input) : i.skipBlanks.rest <:+ i.rest := List.drop_suffix _ _

theorem Input.drop_suffix (i : Input) (count : Nat) : (i.drop count).rest <:+ i.rest :=
  List.drop_suffix _ _

/-- After a comma a shorter text is left. -/
theorem Input.suffix_afterComma (whole : Text) (next : Input) (c : CodePoint) (tail : Text)
    (left : next.rest <:+ whole) (found : next.rest = c :: tail) :
    (next.drop 1).skipBlanks.rest <:+ whole ∧
      (next.drop 1).skipBlanks.rest.length < whole.length := by
  have tailSuffix : (next.drop 1).skipBlanks.rest <:+ tail := by
    have dropped : (next.drop 1).rest = tail := by rw [Input.drop, found]; rfl
    rw [← dropped]
    exact Input.skipBlanks_suffix _
  rw [found] at left
  have shorter := tailSuffix.length_le
  have within := left.length_le
  rw [List.length_cons] at within
  exact ⟨tailSuffix.trans ((List.suffix_cons c tail).trans left), by omega⟩

section Items

variable (value : Input → Step Json) (room : Nat)

/-- What follows an item: the closing bracket, or a comma and further items. -/
theorem bounded_afterItem {α : Type} (whole : Text) (next : Input) (close : CodePoint) (item : α)
    (more : Input → Step (List α)) (left : next.rest <:+ whole)
    (later : ∀ j : Input, j.rest <:+ whole → j.rest.length < whole.length →
      (more j).Bounded room j.rest) :
    Step.Bounded room whole (match next.rest with
      | [] => Input.fail .comma next.position
      | c :: _ =>
        if c = close then .ok ([item], next.drop 1)
        else if c = ',' then
          (more (next.drop 1).skipBlanks).map fun (items, last) => (item :: items, last)
        else Input.fail .comma next.position) := by
  split
  · trivial
  · rename_i c tail found
    split
    · exact (Input.drop_suffix next 1).trans left
    · split
      · obtain ⟨suffix, shorter⟩ := Input.suffix_afterComma whole next c tail left found
        exact Step.bounded_of_suffix suffix _
          (Step.bounded_map (item :: ·) _ (later _ suffix shorter))
      · trivial

theorem bounded_readItems (rounds : Nat) (i : Input)
    (bounded : ∀ j : Input, j.rest <:+ i.rest → (value j).Bounded room j.rest)
    (enough : i.rest.length < rounds) : (readItems value rounds i).Bounded room i.rest := by
  induction rounds generalizing i with
  | zero => exact absurd enough (Nat.not_lt_zero _)
  | succ rounds ih =>
      have first := bounded i List.suffix_rfl
      unfold readItems
      cases run : value i with
      | error e =>
          rw [run] at first
          exact Step.bounded_error e first
      | ok found =>
          obtain ⟨v, after⟩ := found
          rw [run] at first
          have left : after.skipBlanks.rest <:+ i.rest := (Input.skipBlanks_suffix after).trans first
          exact bounded_afterItem room i.rest after.skipBlanks ']' v (readItems value rounds) left
            fun j suffix shorter => ih j (fun k within => bounded k (within.trans suffix)) (by omega)

theorem bounded_readMembers (rounds : Nat) (i : Input)
    (bounded : ∀ j : Input, j.rest <:+ i.rest → (value j).Bounded room j.rest)
    (enough : i.rest.length < rounds) : (readMembers value rounds i).Bounded room i.rest := by
  induction rounds generalizing i with
  | zero => exact absurd enough (Nat.not_lt_zero _)
  | succ rounds ih =>
      unfold readMembers
      split
      · trivial
      · have name : Step.Bounded room i.rest
            (readString i.position (i.position + 1) (i.rest.drop 1)) :=
          Step.bounded_of_suffix (Input.drop_suffix i 1) _ (bounded_readString room _ _ _)
        cases key : readString i.position (i.position + 1) (i.rest.drop 1) with
        | error e =>
            rw [key] at name
            exact Step.bounded_error e name
        | ok found =>
            obtain ⟨k, afterKey⟩ := found
            rw [key] at name
            dsimp only
            split
            · trivial
            · have valueLeft : (afterKey.skipBlanks.drop 1).skipBlanks.rest <:+ i.rest :=
                ((Input.skipBlanks_suffix _).trans (Input.drop_suffix _ 1)).trans
                  ((Input.skipBlanks_suffix afterKey).trans name)
              have first := Step.bounded_of_suffix valueLeft _ (bounded _ valueLeft)
              cases run : value (afterKey.skipBlanks.drop 1).skipBlanks with
              | error e =>
                  rw [run] at first
                  exact Step.bounded_error e first
              | ok found =>
                  obtain ⟨v, after⟩ := found
                  rw [run] at first
                  have left : after.skipBlanks.rest <:+ i.rest :=
                    (Input.skipBlanks_suffix after).trans first
                  exact bounded_afterItem room i.rest after.skipBlanks '\x7d' (k, v)
                    (readMembers value rounds) left
                    fun j suffix shorter =>
                      ih j (fun k within => bounded k (within.trans suffix)) (by omega)

theorem bounded_readArray (i : Input)
    (bounded : ∀ j : Input, j.rest <:+ i.rest → (value j).Bounded room j.rest) :
    (readArray value i).Bounded room i.rest := by
  have left := Input.skipBlanks_suffix i
  unfold readArray
  dsimp only
  split
  · exact (Input.drop_suffix _ 1).trans left
  · have items := bounded_readItems value room _ i.skipBlanks
      (fun j within => bounded j (within.trans left)) (Nat.lt_succ_self _)
    exact Step.bounded_of_suffix left _ (Step.bounded_map Json.array _ items)

theorem bounded_readObject (i : Input)
    (bounded : ∀ j : Input, j.rest <:+ i.rest → (value j).Bounded room j.rest) :
    (readObject value i).Bounded room i.rest := by
  have left := Input.skipBlanks_suffix i
  unfold readObject
  dsimp only
  split
  · exact (Input.drop_suffix _ 1).trans left
  · have members := bounded_readMembers value room _ i.skipBlanks
      (fun j within => bounded j (within.trans left)) (Nat.lt_succ_self _)
    exact Step.bounded_of_suffix left _ (Step.bounded_map ofMembers _ members)

end Items

/-! ## Values -/

/-- An array or object takes one unit of room and shows one bracket for it. -/
theorem bounded_nested (room : Nat) (i : Input) (c : CodePoint) (tail : Text)
    (found : i.rest = c :: tail) (opening : isOpening c = true) (read : Input → Step Json)
    (inner : (read (i.drop 1)).Bounded room (i.drop 1).rest) :
    (read (i.drop 1)).Bounded (room + 1) i.rest := by
  have dropped : (i.drop 1).rest = tail := by rw [Input.drop, found]; rfl
  rw [dropped] at inner
  rw [found]
  match read (i.drop 1), inner with
  | .ok (_, after), inner => exact List.IsSuffix.trans inner (List.suffix_cons c tail)
  | .error (.expected _ _), _ => trivial
  | .error (.overrun overrun), inner => exact overrun.shown_cons room c tail opening inner

/-- Without room the first bracket is one too many. -/
theorem bounded_noRoom (t tail : Text) (c : CodePoint) (found : t = c :: tail)
    (opening : isOpening c = true) :
    Step.Bounded 0 t (.error (.overrun .nesting) : Step Json) := by
  show 0 < t.countP isOpening
  rw [found, List.countP_cons_of_pos opening]
  exact Nat.succ_pos _

theorem bounded_readValue (room : Nat) (i : Input) : (readValue room i).Bounded room i.rest := by
  unfold readValue
  split
  · trivial
  · rename_i c tail found
    split
    · exact Step.bounded_of_suffix (Input.drop_suffix i 1) _
        (Step.bounded_map Json.string _ (bounded_readString _ _ _ _))
    · split
      · rename_i bracket
        have opening : isOpening c = true := by simp [isOpening, bracket]
        split
        · exact bounded_noRoom _ tail c found opening
        · rename_i room
          exact bounded_nested room i c tail found opening _
            (bounded_readArray _ room _ fun j _ => bounded_readValue room j)
      · split
        · rename_i brace
          have opening : isOpening c = true := by simp [isOpening, brace]
          split
          · exact bounded_noRoom _ tail c found opening
          · rename_i room
            exact bounded_nested room i c tail found opening _
              (bounded_readObject _ room _ fun j _ => bounded_readValue room j)
        · exact bounded_readScalar room i
termination_by room

/-- A text whose reading goes past a limit shows it: it has more digits in a row than an integer may
have, or more opening brackets than there is room for. -/
theorem shown_of_parse (t : Text) (overrun : Overrun) (run : parse t = .error (.overrun overrun)) :
    overrun.Shown fullRoom t := by
  unfold parse at run
  split at run
  · simp at run
  · have bounded := Step.bounded_of_suffix (Input.skipBlanks_suffix (Input.ofText t)) _
      (bounded_readValue fullRoom (Input.ofText t).skipBlanks)
    cases read : readValue fullRoom (Input.ofText t).skipBlanks with
    | ok found =>
        rw [read] at run
        dsimp only at run
        split at run <;> simp at run
    | error e =>
        rw [read] at run bounded
        cases run
        exact bounded

end ParenCalc.Json
