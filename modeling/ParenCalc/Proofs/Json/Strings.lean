import ParenCalc.Proofs.Json.Limits
import ParenCalc.Proofs.Text.Surrogates
/-!
# Strings that are read

What is read off a text of scalar values has no split surrogate pair in it: a half can only come from
an escape, and where the escapes of two halves that belong together stand in a row they are read as
one code point.
-/
set_option autoImplicit false

namespace ParenCalc

namespace Json

/-! ## Escapes -/

theorem isSurrogate_simpleEscape? (e c : CodePoint) (means : simpleEscape? e = some c) :
    c.isSurrogate = false := by
  unfold simpleEscape? at means
  split at means
  · rename_i itself
    rw [← Option.some.inj means]
    rcases itself with rfl | rfl | rfl <;> decide
  · iterate 5
      split at means
      · rw [← Option.some.inj means]
        decide
    cases means

/-- An escape is of one unit, or of a pair of surrogates; a first half is read alone only where no
second half follows. -/
theorem unicodeEscape_cases (position : Nat) (digits : Text) (c : CodePoint) (count : Nat)
    (run : unicodeEscape position digits = .ok (c, count)) :
    ∃ unit, fourDigits? digits = some unit ∧ 5 ≤ digits.length ∧
      (c.isSurrogate = false ∨ c = .ofNat unit ∧ count = 4 ∧
        (c.IsHigh → pairedHalf? (position + 6) (digits.drop 4) = .ok none)) := by
  unfold unicodeEscape at run
  split at run
  · cases run
  · rename_i unit four
    split at run
    · cases run
    · rename_i long
      refine ⟨unit, four, Nat.not_lt.mp long, ?_⟩
      split at run
      · rename_i high
        cases half : pairedHalf? (position + 6) (digits.drop 4) with
        | error refusal => simp [half, Except.map] at run
        | ok found =>
            rw [half] at run
            cases found with
            | some low =>
                obtain ⟨rfl, -⟩ := Prod.mk.inj (Except.ok.inj run)
                exact .inl (CodePoint.isSurrogate_ofNat _ (by omega))
            | none =>
                obtain ⟨rfl, rfl⟩ := Prod.mk.inj (Except.ok.inj run)
                exact .inr ⟨rfl, rfl, fun _ => rfl⟩
      · rename_i notHigh
        obtain ⟨rfl, rfl⟩ := Prod.mk.inj (Except.ok.inj run)
        refine .inr ⟨rfl, rfl, fun high => ?_⟩
        have value := CodePoint.val_ofNat unit
        unfold CodePoint.IsHigh at high
        split at value <;> omega

/-- No second half begins where the escape of one cannot be. -/
theorem not_isLow_of_pairedHalf? (place position : Nat) (digits : Text) (c : CodePoint) (count : Nat)
    (run : unicodeEscape position digits = .ok (c, count))
    (alone : pairedHalf? place ('\\' :: 'u' :: digits) = .ok none) : ¬ c.IsLow := by
  intro low
  obtain ⟨unit, four, long, notHalf | ⟨rfl, -, -⟩⟩ := unicodeEscape_cases position digits c count run
  · exact ((CodePoint.isSurrogate_eq_false_iff c).mp notHalf).2 low
  · have value := CodePoint.val_ofNat unit
    have marked : (CodePoint.ofChar '\\' :: CodePoint.ofChar 'u' :: digits).take 2 = "\\u" := rfl
    have enough : 6 < (CodePoint.ofChar '\\' :: CodePoint.ofChar 'u' :: digits).length := by
      rw [List.length_cons, List.length_cons]
      omega
    rw [pairedHalf?, if_pos ⟨marked, enough⟩] at alone
    rw [show (CodePoint.ofChar '\\' :: CodePoint.ofChar 'u' :: digits).drop 2 = digits from rfl,
      four] at alone
    unfold CodePoint.IsLow at low
    have isLow : 0xDC00 ≤ unit ∧ unit ≤ 0xDFFF := by
      split at value <;> omega
    dsimp only at alone
    rw [if_pos isLow] at alone
    cases alone

/-! ## Strings -/

theorem map_eq_ok {α β : Type} (f : α → β) (step : Step α) (b : β) (after : Input)
    (run : step.map (fun (a, after) => (f a, after)) = .ok (b, after)) :
    ∃ a, step = .ok (a, after) ∧ f a = b := by
  cases step with
  | error e => cases run
  | ok found =>
      obtain ⟨value, left⟩ := Prod.mk.inj (Except.ok.inj run)
      exact ⟨found.1, by rw [← left], value⟩

/-- A string that is read splits no pair, and begins with a second half only where the escape of one
stands. -/
theorem unsplit_of_readString (start position : Nat) (t : Text) (scalar : t.Scalar) (meaning : Text)
    (after : Input) (run : readString start position t = .ok (meaning, after)) :
    meaning.Unsplit ∧
      ∀ place, pairedHalf? place t = .ok none → ∀ c, meaning.head? = some c → ¬ c.IsLow := by
  fun_induction readString start position t generalizing meaning with
  | case1 | case3 | case4 | case5 | case7 => cases run
  | case2 position rest =>
      cases run
      exact ⟨Text.unsplit_nil, fun _ _ c first => by cases first⟩
  | case6 position rest d count escape _ _ ih =>
      obtain ⟨more, inner, rfl⟩ := map_eq_ok (d :: ·) _ _ _ run
      have later : Text.Scalar (rest.drop count) := fun c member =>
        scalar c (List.mem_cons_of_mem _ (List.mem_cons_of_mem _ (List.mem_of_mem_drop member)))
      obtain ⟨unsplit, starts⟩ := ih later more inner
      refine ⟨(Text.unsplit_cons_iff d more).mpr ⟨?_, unsplit⟩, ?_⟩
      · rintro e first ⟨high, low⟩
        obtain ⟨unit, -, -, notHalf | ⟨-, rfl, alone⟩⟩ :=
          unicodeEscape_cases position rest d count escape
        · exact ((CodePoint.isSurrogate_eq_false_iff d).mp notHalf).1 high
        · exact starts _ (alone high) e first low
      · intro place alone c first
        cases first
        exact not_isLow_of_pairedHalf? place position rest d count escape alone
  | case8 position e rest noUnicode d means _ _ ih =>
      obtain ⟨more, inner, rfl⟩ := map_eq_ok (d :: ·) _ _ _ run
      have noHalf := isSurrogate_simpleEscape? e d means
      have later : Text.Scalar rest := fun c member =>
        scalar c (List.mem_cons_of_mem _ (List.mem_cons_of_mem _ member))
      refine ⟨Text.unsplit_cons d more noHalf (ih later more inner).1, ?_⟩
      intro _ _ c first
      cases first
      exact ((CodePoint.isSurrogate_eq_false_iff d).mp noHalf).2
  | case9 position c rest noQuote printable noBackslash ih =>
      obtain ⟨more, inner, rfl⟩ := map_eq_ok (c :: ·) _ _ _ run
      have noHalf := scalar c List.mem_cons_self
      have later : Text.Scalar rest := fun d member => scalar d (List.mem_cons_of_mem _ member)
      refine ⟨Text.unsplit_cons c more noHalf (ih later more inner).1, ?_⟩
      intro _ _ d first
      cases first
      exact ((CodePoint.isSurrogate_eq_false_iff c).mp noHalf).2

/-! ## Values -/

def isAtom : Json → Bool
  | .null | .bool _ | .number _ => true
  | .string _ | .array _ | .object _ => false

/-- A value in which no string splits a surrogate pair. -/
inductive Unsplit : Json → Prop
  | atom (v : Json) (isAtom : v.isAtom = true) : Unsplit v
  | string (t : Text) (unsplit : t.Unsplit) : Unsplit (.string t)
  | array (items : List Json) (each : ∀ v ∈ items, Unsplit v) : Unsplit (.array items)
  | object (members : List (Text × Json)) (keys : ∀ member ∈ members, member.1.Unsplit)
      (each : ∀ member ∈ members, Unsplit member.2) : Unsplit (.object members)

theorem isAtom_of_readScalar (i after : Input) (v : Json) (run : readScalar i = .ok (v, after)) :
    v.isAtom = true := by
  unfold readScalar at run
  split at run
  · rename_i entry found
    have known : ∀ entry ∈ Json.named, entry.2.isAtom = true := by decide
    obtain ⟨rfl, -⟩ := Prod.mk.inj (Except.ok.inj run)
    exact known entry (List.mem_of_find?_eq_some found)
  · unfold readNumber at run
    dsimp only at run
    repeat' split at run
    all_goals cases run
    all_goals rfl

theorem scalar_of_suffix (t whole : Text) (suffix : t <:+ whole) (scalar : whole.Scalar) :
    t.Scalar :=
  fun c member => scalar c (suffix.subset member)

/-- The rest after a mark and the blanks around it is a suffix of the text. -/
theorem suffix_afterMark (after : Input) (t : Text) (suffix : after.rest <:+ t) :
    (after.skipBlanks.drop 1).skipBlanks.rest <:+ t :=
  (Input.skipBlanks_suffix _).trans ((Input.drop_suffix _ 1).trans
    ((Input.skipBlanks_suffix after).trans suffix))

/-- A step that is given scalar values to read, and then yields what is as told and leaves a suffix. -/
def Reads {α : Type} (p : α → Prop) (read : Input → Step α) : Prop :=
  ∀ i after a, i.rest.Scalar → read i = .ok (a, after) → p a ∧ after.rest <:+ i.rest

section Parts

variable (value : Input → Step Json) (reads : Reads Unsplit value)

include reads

theorem reads_items (rounds : Nat) :
    Reads (fun items => ∀ v ∈ items, Unsplit v) (readItems value rounds) := by
  intro i after items scalar run
  induction rounds generalizing i items with
  | zero => cases run
  | succ rounds ih =>
      unfold readItems at run
      split at run
      · cases run
      · rename_i v afterValue read
        obtain ⟨own, suffix⟩ := reads i afterValue v scalar read
        have later := suffix_afterMark afterValue i.rest suffix
        dsimp only at run
        split at run
        · cases run
        · split at run
          · obtain ⟨rfl, rfl⟩ := Prod.mk.inj (Except.ok.inj run)
            refine ⟨fun w member => List.mem_singleton.mp member ▸ own, ?_⟩
            exact (Input.drop_suffix _ 1).trans ((Input.skipBlanks_suffix _).trans suffix)
          · split at run
            · obtain ⟨others, inner, rfl⟩ := map_eq_ok (v :: ·) _ _ _ run
              obtain ⟨each, left⟩ := ih _ others (scalar_of_suffix _ _ later scalar) inner
              refine ⟨?_, left.trans later⟩
              exact List.forall_mem_cons.mpr ⟨own, each⟩
            · cases run

theorem reads_members (rounds : Nat) :
    Reads (fun members => ∀ member ∈ members, member.1.Unsplit ∧ Unsplit member.2)
      (readMembers value rounds) := by
  intro i after members scalar run
  induction rounds generalizing i members with
  | zero => cases run
  | succ rounds ih =>
      unfold readMembers at run
      split at run
      · cases run
      · split at run
        · cases run
        · rename_i name afterKey keyRead
          have start := List.drop_suffix 1 i.rest
          have key := (unsplit_of_readString _ _ _ (scalar_of_suffix _ _ start scalar) _ _ keyRead).1
          have keySuffix : afterKey.rest <:+ i.rest := by
            have bounded := bounded_readString 0 i.position (i.position + 1) (i.rest.drop 1)
            rw [keyRead] at bounded
            exact bounded.trans start
          have beforeValue := suffix_afterMark afterKey i.rest keySuffix
          dsimp only at run
          split at run
          · cases run
          · split at run
            · cases run
            · rename_i v afterValue read
              obtain ⟨own, valueSuffix⟩ :=
                reads _ afterValue v (scalar_of_suffix _ _ beforeValue scalar) read
              have suffix := valueSuffix.trans beforeValue
              have later := suffix_afterMark afterValue i.rest suffix
              split at run
              · cases run
              · split at run
                · obtain ⟨rfl, rfl⟩ := Prod.mk.inj (Except.ok.inj run)
                  refine ⟨fun member isOwn => List.mem_singleton.mp isOwn ▸ ⟨key, own⟩, ?_⟩
                  exact (Input.drop_suffix _ 1).trans ((Input.skipBlanks_suffix _).trans suffix)
                · split at run
                  · obtain ⟨others, inner, rfl⟩ := map_eq_ok (Prod.mk name v :: ·) _ _ _ run
                    obtain ⟨each, left⟩ := ih _ others (scalar_of_suffix _ _ later scalar) inner
                    refine ⟨?_, left.trans later⟩
                    exact List.forall_mem_cons.mpr ⟨⟨key, own⟩, each⟩
                  · cases run

theorem reads_array : Reads Unsplit (readArray value) := by
  intro i after v scalar run
  have start := Input.skipBlanks_suffix i
  unfold readArray at run
  dsimp only at run
  split at run
  · obtain ⟨rfl, rfl⟩ := Prod.mk.inj (Except.ok.inj run)
    exact ⟨.array [] (List.forall_mem_nil _), (Input.drop_suffix _ 1).trans start⟩
  · obtain ⟨items, inner, rfl⟩ := map_eq_ok Json.array _ _ _ run
    obtain ⟨each, suffix⟩ := reads_items value reads _ i.skipBlanks after items
      (scalar_of_suffix _ _ start scalar) inner
    exact ⟨.array items each, suffix.trans start⟩

theorem reads_object : Reads Unsplit (readObject value) := by
  intro i after v scalar run
  have start := Input.skipBlanks_suffix i
  unfold readObject at run
  dsimp only at run
  split at run
  · obtain ⟨rfl, rfl⟩ := Prod.mk.inj (Except.ok.inj run)
    exact ⟨.object [] (List.forall_mem_nil _) (List.forall_mem_nil _),
      (Input.drop_suffix _ 1).trans start⟩
  · obtain ⟨members, inner, rfl⟩ := map_eq_ok ofMembers _ _ _ run
    obtain ⟨each, suffix⟩ := reads_members value reads _ i.skipBlanks after members
      (scalar_of_suffix _ _ start scalar) inner
    have kept (member : Text × Json) (inMap : member ∈ (OrderedMap.ofList members).entries) :=
      each member (OrderedMap.mem_ofList members member inMap)
    refine ⟨.object _ ?_ ?_, suffix.trans start⟩
    · exact fun member inMap => (kept member inMap).1
    · exact fun member inMap => (kept member inMap).2

end Parts

/-- No string in a value that is read splits a pair. -/
theorem reads_value (room : Nat) : Reads Unsplit (readValue room) := by
  intro i after v scalar run
  have suffix : after.rest <:+ i.rest := by
    have bounded := bounded_readValue room i
    rw [run] at bounded
    exact bounded
  have start := scalar_of_suffix _ _ (Input.drop_suffix i 1) scalar
  refine ⟨?_, suffix⟩
  unfold readValue at run
  split at run
  · cases run
  · split at run
    · obtain ⟨meaning, read, rfl⟩ := map_eq_ok Json.string _ _ _ run
      exact .string meaning (unsplit_of_readString _ _ _ start _ _ read).1
    · split at run
      · cases room with
        | zero => cases run
        | succ room =>
            exact (reads_array (readValue room) (reads_value room) (i.drop 1) after v start run).1
      · split at run
        · cases room with
          | zero => cases run
          | succ room =>
              exact (reads_object (readValue room) (reads_value room) (i.drop 1) after v start run).1
        · exact .atom v (isAtom_of_readScalar i after v run)
termination_by room

theorem unsplit_of_parse (t : Text) (scalar : t.Scalar) (v : Json) (run : parse t = .ok v) :
    v.Unsplit := by
  have start := scalar_of_suffix _ _ (Input.skipBlanks_suffix (Input.ofText t)) scalar
  unfold parse at run
  split at run
  · cases run
  · split at run
    · cases run
    · rename_i found after read
      dsimp only at run
      split at run
      · rw [← Except.ok.inj run]
        exact (reads_value fullRoom _ after found start read).1
      · cases run

end Json

end ParenCalc
