import ParenCalc.Proofs.Json.Scalars
/-!
# JSON proper is read

Every text that is JSON proper for a value is read as this value, as long as the value keeps to the
limits of reading: integers and nesting go only so far, an object has every key once, and no surrogate
pair is split.  What follows the text matters for numbers only, which would go on with it.
-/
set_option autoImplicit false

namespace ParenCalc

namespace Json

open Digits (Valid Whole text)
open Text (Stops stops_nil stops_cons)

/-! ## Values -/

/-- A value that is read back from what is written of it, with room for so many arrays and objects
around one another. -/
inductive Sendable : Nat → Json → Prop
  | null (room : Nat) : Sendable room .null
  | bool (room : Nat) (b : Bool) : Sendable room (.bool b)
  | number (room : Nat) (n : Number) (sendable : n.IsSendable) : Sendable room (.number n)
  | string (room : Nat) (t : Text) (unsplit : t.Unsplit) : Sendable room (.string t)
  | array (room : Nat) (items : List Json) (each : ∀ v ∈ items, Sendable room v) :
      Sendable (room + 1) (.array items)
  | object (room : Nat) (members : List (Text × Json)) (distinct : (members.map Prod.fst).Nodup)
      (keys : ∀ member ∈ members, member.1.Unsplit)
      (each : ∀ member ∈ members, Sendable room member.2) : Sendable (room + 1) (.object members)

theorem ofMembers_of_distinct (members : List (Text × Json))
    (distinct : (members.map Prod.fst).Nodup) : ofMembers members = .object members := by
  rw [ofMembers, OrderedMap.entries_ofList members distinct]

theorem skipBlanks_spaces (position gap : Nat) (rest : Text) (solid : Stops Input.isBlank rest) :
    Input.skipBlanks ⟨position, spaces gap ++ rest⟩ = ⟨position + gap, rest⟩ := by
  have blank : ∀ c ∈ spaces gap, Input.isBlank c = true := by
    intro c member
    rw [List.eq_of_mem_replicate member]
    decide
  have length : (spaces gap).length = gap := List.length_replicate
  have run := Text.takeWhile_append Input.isBlank (spaces gap) rest blank solid
  unfold Input.skipBlanks
  dsimp only
  rw [run, Input.drop, List.drop_left, length]

theorem skipBlanks_of_solid (i : Input) (solid : Stops Input.isBlank i.rest) : i.skipBlanks = i :=
  skipBlanks_spaces i.position 0 i.rest solid

/-- No value begins with a blank, and none with a bracket that closes. -/
theorem head_of_spells {t : Text} {v : Json} (spelled : Spells t v) :
    ∃ c more, t = c :: more ∧ Input.isBlank c = false ∧ c ≠ ']' := by
  cases spelled with
  | null | true | false | emptyArray | emptyObject =>
      exact ⟨_, _, rfl, by decide, by decide⟩
  | number t n spelled =>
      have minus : Input.isBlank '-' = false ∧ CodePoint.ofChar '-' ≠ ']' := by decide
      have digit : ∀ d : Fin 10, Input.isBlank (.ofDigit d) = false ∧ CodePoint.ofDigit d ≠ ']' := by
        decide
      obtain ⟨negative, d, more, low, rfl⟩ := digit_of_spellsNumber t n spelled
      cases negative with
      | true => exact ⟨_, _, rfl, minus⟩
      | false => exact ⟨_, _, rfl, digit ⟨d, low⟩⟩
  | string t meaning spelled =>
      cases spelled with
      | intro t meaning inside => exact ⟨_, _, rfl, by decide, by decide⟩
  | array t items spelled => exact ⟨_, _, rfl, by decide, by decide⟩
  | object t members spelled => exact ⟨_, _, rfl, by decide, by decide⟩

section Parts

variable (value : Input → Step Json) (rounds position gap : Nat) (i : Input) (v : Json) (rest : Text)

theorem readItems_last (read : value i = .ok (v, ⟨position, "]" ++ rest⟩)) :
    readItems value (rounds + 1) i = .ok ([v], ⟨position + 1, rest⟩) := by
  have solid := skipBlanks_of_solid ⟨position, "]" ++ rest⟩ (stops_cons _ _ _ (by decide))
  unfold readItems
  rw [read]
  dsimp only
  rw [solid]
  rfl

theorem readItems_comma (read : value i = .ok (v, ⟨position, "," ++ (spaces gap ++ rest)⟩))
    (starts : Stops Input.isBlank rest) :
    readItems value (rounds + 1) i =
      (readItems value rounds ⟨position + 1 + gap, rest⟩).map fun (vs, last) => (v :: vs, last) := by
  have solid := skipBlanks_of_solid ⟨position, "," ++ (spaces gap ++ rest)⟩
    (stops_cons _ _ _ (by decide))
  have next := skipBlanks_spaces (position + 1) gap rest starts
  rw [← next, readItems, read]
  dsimp only
  rw [solid]
  rfl

variable (name key : Text) (spelled : SpellsString name key) (unsplit : key.Unsplit)
  (starts : Stops Input.isBlank rest)

include spelled unsplit starts

/-- After a member there is a mark that ends the object or goes on with it. -/
theorem readMembers_member (start : Nat) (after : Input) (mark : CodePoint) (tail : Text)
    (read : value ⟨start + name.length + 1 + gap, rest⟩ = .ok (v, after))
    (marked : after.skipBlanks = ⟨position, mark :: tail⟩) :
    readMembers value (rounds + 1) ⟨start, name ++ (":" ++ (spaces gap ++ rest))⟩ =
      if mark = '\x7d' then .ok ([(key, v)], ⟨position + 1, tail⟩)
      else if mark = ',' then
        (readMembers value rounds (Input.skipBlanks ⟨position + 1, tail⟩)).map
          fun (vs, last) => ((key, v) :: vs, last)
      else Input.fail .comma position := by
  obtain ⟨more, shape, keyRead⟩ :=
    readString_of_spellsString start name key spelled unsplit (":" ++ (spaces gap ++ rest))
  have colon := skipBlanks_of_solid ⟨start + name.length, ":" ++ (spaces gap ++ rest)⟩
    (stops_cons _ _ _ (by decide))
  have afterColon : Input.drop ⟨start + name.length, ":" ++ (spaces gap ++ rest)⟩ 1 =
      ⟨start + name.length + 1, spaces gap ++ rest⟩ := rfl
  have next := skipBlanks_spaces (start + name.length + 1) gap rest starts
  rw [shape, readMembers]
  dsimp only
  rw [if_neg (fun other => other rfl), List.drop_succ_cons, List.drop_zero, keyRead]
  dsimp only
  rw [colon, if_neg (fun other => other rfl), afterColon, next, read]
  dsimp only
  rw [marked]
  rfl

theorem readMembers_last (start : Nat) (tail : Text)
    (read : value ⟨start + name.length + 1 + gap, rest⟩ = .ok (v, ⟨position, "\x7d" ++ tail⟩)) :
    readMembers value (rounds + 1) ⟨start, name ++ (":" ++ (spaces gap ++ rest))⟩ =
      .ok ([(key, v)], ⟨position + 1, tail⟩) := by
  have solid := skipBlanks_of_solid ⟨position, "\x7d" ++ tail⟩ (stops_cons _ _ _ (by decide))
  exact readMembers_member value rounds position gap v rest name key spelled unsplit starts start _ _
    tail read solid

theorem readMembers_comma (start more : Nat) (tail : Text) (tailStarts : Stops Input.isBlank tail)
    (read : value ⟨start + name.length + 1 + gap, rest⟩ =
      .ok (v, ⟨position, "," ++ (spaces more ++ tail)⟩)) :
    readMembers value (rounds + 1) ⟨start, name ++ (":" ++ (spaces gap ++ rest))⟩ =
      (readMembers value rounds ⟨position + 1 + more, tail⟩).map
        fun (vs, last) => ((key, v) :: vs, last) := by
  have solid := skipBlanks_of_solid ⟨position, "," ++ (spaces more ++ tail)⟩
    (stops_cons _ _ _ (by decide))
  have next := skipBlanks_spaces (position + 1) more tail tailStarts
  rw [← next]
  exact readMembers_member value rounds position gap v rest name key spelled unsplit starts start _ _
    (spaces more ++ tail) read solid

end Parts

theorem starts_of_spells {t : Text} {v : Json} (spelled : Spells t v) (rest : Text) :
    Stops Input.isBlank (t ++ rest) := by
  obtain ⟨c, more, rfl, solid, -⟩ := head_of_spells spelled
  exact stops_cons _ c _ solid

/-- A mark and some spaces stand between two texts. -/
theorem length_separated (position gap : Nat) (mark t more : Text) (one : mark.length = 1) :
    position + (t ++ (mark ++ spaces gap ++ more)).length =
      position + t.length + 1 + gap + more.length := by
  have length : (spaces gap).length = gap := List.length_replicate
  simp only [List.length_append, one, length]
  omega

theorem append_separated (gap : Nat) (mark t more rest : Text) :
    t ++ (mark ++ spaces gap ++ more) ++ rest = t ++ (mark ++ (spaces gap ++ (more ++ rest))) := by
  simp only [List.append_assoc]

theorem head_of_spellsItems {t : Text} {items : List Json} (spelled : SpellsItems t items) :
    ∃ c more, t = c :: more ∧ Input.isBlank c = false ∧ c ≠ ']' := by
  cases spelled with
  | one t v spelled => exact head_of_spells spelled
  | more t rest v items gap first later =>
      obtain ⟨c, more, rfl, solid, other⟩ := head_of_spells first
      exact ⟨c, _, rfl, solid, other⟩

theorem head_of_spellsMembers {t : Text} {members : List (Text × Json)}
    (spelled : SpellsMembers t members) : ∃ more, t = CodePoint.ofChar '\x22' :: more := by
  have named (name : Text) (key rest : Text) (spelled : SpellsString name key) :
      ∃ more, name ++ rest = CodePoint.ofChar '\x22' :: more := by
    cases spelled with
    | intro t key inside => exact ⟨_, rfl⟩
  cases spelled with
  | one t member spelled =>
      cases spelled with
      | intro name t key v gap spelledKey spelled => exact named name key _ spelledKey
  | more t rest member members gap first later =>
      cases first with
      | intro name t key v gap spelledKey spelled =>
          rw [List.append_assoc]
          exact named name key _ spelledKey

theorem starts_of_spellsItems {t : Text} {items : List Json} (spelled : SpellsItems t items)
    (rest : Text) : Stops Input.isBlank (t ++ rest) := by
  obtain ⟨c, more, rfl, solid, -⟩ := head_of_spellsItems spelled
  exact stops_cons _ c _ solid

theorem starts_of_spellsMembers {t : Text} {members : List (Text × Json)}
    (spelled : SpellsMembers t members) (rest : Text) : Stops Input.isBlank (t ++ rest) := by
  obtain ⟨more, rfl⟩ := head_of_spellsMembers spelled
  exact stops_cons _ _ _ (by decide)

/-- Every item takes a code point at least, so the rounds do not run out. -/
theorem length_le_of_spellsItems {t : Text} {items : List Json} (spelled : SpellsItems t items) :
    items.length ≤ t.length := by
  cases spelled with
  | one t v spelled =>
      obtain ⟨c, more, rfl, -, -⟩ := head_of_spells spelled
      exact Nat.succ_le_succ (Nat.zero_le _)
  | more t rest v items gap first later =>
      have others := length_le_of_spellsItems later
      rw [List.length_cons, List.length_append, List.length_append, List.length_append]
      show _ ≤ t.length + (1 + _ + _)
      omega

theorem length_le_of_spellsMembers {t : Text} {members : List (Text × Json)}
    (spelled : SpellsMembers t members) : members.length ≤ t.length := by
  cases spelled with
  | one t member spelled =>
      obtain ⟨more, rfl⟩ := head_of_spellsMembers (.one t member spelled)
      exact Nat.succ_le_succ (Nat.zero_le _)
  | more t rest member members gap first later =>
      have others := length_le_of_spellsMembers later
      rw [List.length_cons, List.length_append, List.length_append, List.length_append]
      show _ ≤ t.length + (1 + _ + _)
      omega

theorem readArray_of_items (value : Input → Step Json) (position : Nat) (t : Text)
    (items : List Json) (spelled : SpellsItems t items) (rest : Text)
    (read : ∀ rounds, items.length ≤ rounds →
      readItems value rounds ⟨position, t ++ ("]" ++ rest)⟩ =
        .ok (items, ⟨position + t.length + 1, rest⟩)) :
    readArray value ⟨position, t ++ ("]" ++ rest)⟩ =
      .ok (.array items, ⟨position + t.length + 1, rest⟩) := by
  obtain ⟨c, more, shape, solid, other⟩ := head_of_spellsItems spelled
  have enough : items.length ≤ (t ++ ("]" ++ rest)).length.succ := by
    have count := length_le_of_spellsItems spelled
    rw [List.length_append]
    omega
  have first : Input.skipBlanks ⟨position, t ++ ("]" ++ rest)⟩ = ⟨position, t ++ ("]" ++ rest)⟩ := by
    refine skipBlanks_of_solid _ ?_
    rw [shape]
    exact stops_cons _ c _ solid
  have opens : (t ++ ("]" ++ rest)).take 1 ≠ "]" := by
    rw [shape]
    exact fun closes => other (List.cons.inj closes).1
  unfold readArray
  rw [first]
  dsimp only
  rw [if_neg opens, read _ enough]
  rfl

theorem readObject_of_members (value : Input → Step Json) (position : Nat) (t : Text)
    (members : List (Text × Json)) (spelled : SpellsMembers t members) (rest : Text)
    (distinct : (members.map Prod.fst).Nodup)
    (read : ∀ rounds, members.length ≤ rounds →
      readMembers value rounds ⟨position, t ++ ("\x7d" ++ rest)⟩ =
        .ok (members, ⟨position + t.length + 1, rest⟩)) :
    readObject value ⟨position, t ++ ("\x7d" ++ rest)⟩ =
      .ok (.object members, ⟨position + t.length + 1, rest⟩) := by
  obtain ⟨more, shape⟩ := head_of_spellsMembers spelled
  have enough : members.length ≤ (t ++ ("\x7d" ++ rest)).length.succ := by
    have count := length_le_of_spellsMembers spelled
    rw [List.length_append]
    omega
  have first : Input.skipBlanks ⟨position, t ++ ("\x7d" ++ rest)⟩ =
      ⟨position, t ++ ("\x7d" ++ rest)⟩ := by
    refine skipBlanks_of_solid _ ?_
    rw [shape]
    exact stops_cons _ _ _ (by decide)
  have opens : (t ++ ("\x7d" ++ rest)).take 1 ≠ "\x7d" := by
    have mark : CodePoint.ofChar '\x22' ≠ '\x7d' := by decide
    rw [shape]
    exact fun closes => mark (List.cons.inj closes).1
  unfold readObject
  rw [first]
  dsimp only
  rw [if_neg opens, read _ enough]
  simp only [Except.map, ofMembers_of_distinct members distinct]

theorem readValue_array (room position : Nat) (rest : Text) :
    readValue (room + 1) ⟨position, "[" ++ rest⟩ =
      readArray (readValue room) ⟨position + 1, rest⟩ := by
  rw [readValue.eq_def]
  rfl

theorem readValue_object (room position : Nat) (rest : Text) :
    readValue (room + 1) ⟨position, "\x7b" ++ rest⟩ =
      readObject (readValue room) ⟨position + 1, rest⟩ := by
  rw [readValue.eq_def]
  rfl

mutual

/-- The text of a value is read as the value, whatever follows that a number does not go on with. -/
theorem readValue_of_spells : ∀ {t : Text} {v : Json}, Spells t v → ∀ (room position : Nat)
    (rest : Text), Sendable room v → Stops goesOn rest →
      readValue room ⟨position, t ++ rest⟩ = .ok (v, ⟨position + t.length, rest⟩)
  | _, _, .null, room, position, rest, _, _ => readValue_null room position rest
  | _, _, .true, room, position, rest, _, _ => readValue_true room position rest
  | _, _, .false, room, position, rest, _, _ => readValue_false room position rest
  | _, _, .number t n spelled, room, position, rest, .number _ _ sendable, stops =>
      readValue_of_spellsNumber t n spelled sendable room position rest stops
  | _, _, .string t meaning spelled, room, position, rest, .string _ _ unsplit, _ =>
      readValue_string room position t meaning spelled unsplit rest
  | _, _, .emptyArray, _, position, rest, .array room _ _, _ =>
      readValue_array room position ("]" ++ rest)
  | _, _, .array t items spelled, _, position, rest, .array room _ each, _ => by
      have read := readArray_of_items (readValue room) (position + 1) t items spelled rest
        (fun rounds enough => readItems_of_spells spelled room rounds (position + 1) rest each enough)
      rw [length_bracketed position "[" "]" t rfl rfl, List.append_assoc, List.append_assoc]
      exact (readValue_array room position _).trans read
  | _, _, .emptyObject, _, position, rest, .object room _ _ _ _, _ =>
      readValue_object room position ("\x7d" ++ rest)
  | _, _, .object t members spelled, _, position, rest, .object room _ distinct keys each, _ => by
      have read := readObject_of_members (readValue room) (position + 1) t members spelled rest distinct
        (fun rounds enough =>
          readMembers_of_spells spelled room rounds (position + 1) rest keys each enough)
      rw [length_bracketed position "\x7b" "\x7d" t rfl rfl, List.append_assoc, List.append_assoc]
      exact (readValue_object room position _).trans read

theorem readItems_of_spells : ∀ {t : Text} {items : List Json}, SpellsItems t items →
    ∀ (room rounds position : Nat) (rest : Text), (∀ v ∈ items, Sendable room v) →
      items.length ≤ rounds →
      readItems (readValue room) rounds ⟨position, t ++ ("]" ++ rest)⟩ =
        .ok (items, ⟨position + t.length + 1, rest⟩)
  | _, _, .one t v spelled, room, rounds + 1, position, rest, each, _ =>
      readItems_last _ rounds _ _ v rest (readValue_of_spells spelled room position _
        (each v List.mem_cons_self) (stops_cons _ _ _ (by decide)))
  | _, _, .more t more v items gap first later, room, rounds + 1, position, rest, each, enough => by
      have read := readValue_of_spells first room position
        ("," ++ (spaces gap ++ (more ++ ("]" ++ rest)))) (each v List.mem_cons_self)
        (stops_cons _ _ _ (by decide))
      have others := readItems_of_spells later room rounds (position + t.length + 1 + gap) rest
        (fun w member => each w (List.mem_cons_of_mem v member)) (Nat.le_of_succ_le_succ enough)
      rw [length_separated position gap "," t more rfl, append_separated,
        readItems_comma _ rounds _ gap _ v _ read (starts_of_spellsItems later _), others]
      rfl

theorem readMembers_of_spells : ∀ {t : Text} {members : List (Text × Json)},
    SpellsMembers t members → ∀ (room rounds position : Nat) (rest : Text),
      (∀ member ∈ members, member.1.Unsplit) → (∀ member ∈ members, Sendable room member.2) →
      members.length ≤ rounds →
      readMembers (readValue room) rounds ⟨position, t ++ ("\x7d" ++ rest)⟩ =
        .ok (members, ⟨position + t.length + 1, rest⟩)
  | _, _, .one _ _ (.intro name t key v gap spelledKey spelled), room, rounds + 1, position, rest,
      keys, each, _ => by
      have read := readValue_of_spells spelled room (position + name.length + 1 + gap) ("\x7d" ++ rest)
        (each (key, v) List.mem_cons_self) (stops_cons _ _ _ (by decide))
      rw [length_separated position gap ":" name t rfl, append_separated]
      exact readMembers_last _ rounds _ gap v _ name key spelledKey (keys (key, v) List.mem_cons_self)
        (starts_of_spells spelled _) position rest read
  | _, _, .more _ more _ members between (.intro name t key v gap spelledKey spelled) later, room,
      rounds + 1, position, rest, keys, each, enough => by
      have read := readValue_of_spells spelled room (position + name.length + 1 + gap)
        ("," ++ (spaces between ++ (more ++ ("\x7d" ++ rest)))) (each (key, v) List.mem_cons_self)
        (stops_cons _ _ _ (by decide))
      have others := readMembers_of_spells later room rounds
        (position + name.length + 1 + gap + t.length + 1 + between) rest
        (fun other member => keys other (List.mem_cons_of_mem _ member))
        (fun other member => each other (List.mem_cons_of_mem _ member))
        (Nat.le_of_succ_le_succ enough)
      rw [length_separated position between "," _ more rfl,
        length_separated position gap ":" name t rfl, append_separated, append_separated,
        readMembers_comma _ rounds _ gap v _ name key spelledKey (keys (key, v) List.mem_cons_self)
        (starts_of_spells spelled _) position between _ (starts_of_spellsMembers later _) read, others]
      rfl

end

/-! ## Texts -/

theorem parse_eq (t : Text) (c : CodePoint) (more : Text) (shape : t = c :: more)
    (solid : Input.isBlank c = false) (noMark : c.val ≠ 0xFEFF) :
    parse t =
      match readValue fullRoom ⟨0, t⟩ with
      | .error e => .error e
      | .ok (v, after) =>
        if after.skipBlanks.rest = [] then .ok v
        else .error (.expected .endOfText after.skipBlanks.position) := by
  have first : (Input.ofText t).skipBlanks = ⟨0, t⟩ := by
    refine skipBlanks_of_solid ⟨0, t⟩ ?_
    rw [shape]
    exact stops_cons _ c more solid
  have marked : ¬ t.head?.map CodePoint.val = some 0xFEFF := by
    rw [shape]
    exact fun mark => noMark (Option.some.inj mark)
  unfold parse
  rw [first]
  exact if_neg marked

/-- A text of JSON proper, with blanks after it, is read as its value. -/
theorem parse_of_spells (t : Text) (v : Json) (spelled : Spells t v) (sendable : Sendable fullRoom v)
    (blanks : Text) (blank : ∀ c ∈ blanks, Input.isBlank c = true) :
    parse (t ++ blanks) = .ok v := by
  have stops : Stops goesOn blanks := by
    intro c first
    have isBlank := blank c (List.mem_of_mem_head? first)
    simp only [Input.isBlank, Bool.or_eq_true, decide_eq_true_eq] at isBlank
    rcases isBlank with ((rfl | rfl) | rfl) | rfl <;> decide
  have read := readValue_of_spells spelled fullRoom 0 blanks sendable stops
  have printable := oneLine_of_spells spelled
  obtain ⟨c, more, shape, solid, -⟩ := head_of_spells spelled
  have noMark : c.val ≠ 0xFEFF := by
    have low := printable c (by rw [shape]; exact List.mem_cons_self)
    omega
  have last : (Input.skipBlanks ⟨0 + t.length, blanks⟩).rest = [] := by
    have run := Text.takeWhile_append Input.isBlank blanks [] blank (stops_nil _)
    rw [List.append_nil] at run
    simp only [Input.skipBlanks, Input.drop, run, List.drop_length]
  rw [parse_eq (t ++ blanks) c (more ++ blanks) (by rw [shape]; rfl) solid noMark, read]
  exact if_pos last

/-- An integer of too many digits goes past the limit. -/
theorem parse_long (digits : List Nat) (valid : Valid digits) (whole : Whole digits)
    (long : Numeral.maxDigits < digits.length) :
    parse (text digits) = .error (.overrun .digits) := by
  have read := readNumber_eq 0 false digits [] [] [] 0 valid whole .absent .absent [] (stops_nil _)
  simp only [List.append_nil, and_self, if_true, if_pos long] at read
  cases digits with
  | nil => exact absurd rfl whole.1
  | cons d rest =>
      have low := valid d List.mem_cons_self
      have marks : ∀ d : Fin 10, Input.isBlank (.ofDigit d) = false ∧
          (CodePoint.ofDigit d).val ≠ 0xFEFF := by
        decide
      obtain ⟨solid, noMark⟩ := marks ⟨d, low⟩
      have value : readValue fullRoom ⟨0, text (d :: rest)⟩ = .error (.overrun .digits) :=
        (readValue_of_number false d low fullRoom 0 (text rest)).trans read
      rw [parse_eq (text (d :: rest)) _ (text rest) rfl solid noMark, value]

end Json

end ParenCalc
