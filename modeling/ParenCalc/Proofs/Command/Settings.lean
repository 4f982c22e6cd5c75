import ParenCalc.Command.Settings
import ParenCalc.Proofs.Json.Sending
import ParenCalc.Session.Registry
/-!
# What the environment can set

A limit that the environment sets was read from a numeral, so it has no more digits than a numeral may
have, and can be told in a reply.
-/
set_option autoImplicit false

namespace ParenCalc

/-! ## Numerals -/

theorem CodePoint.digitValue_lt (c : CodePoint) : c.digitValue < 10 := by
  unfold digitValue digitValue?
  cases found : digitZeros.find? fun start => start ≤ c.val && c.val ≤ start + 9 with
  | none => exact Nat.zero_lt_succ 9
  | some start =>
      have near := List.find?_some found
      simp only [Bool.and_eq_true, decide_eq_true_eq] at near
      simp only [Option.map_some, Option.getD_some]
      omega

namespace Numeral

theorem signed_suffix (t : Text) : (signed t).2 <:+ t := by
  unfold signed
  split
  · exact List.suffix_refl _
  · split
    · exact List.suffix_cons _ _
    · split
      · exact List.suffix_cons _ _
      · exact List.suffix_refl _

/-- An integer has no more digits than its numeral. -/
theorem isSendable_of_integer? (t : Text) (i : Int) (short : digitCount t ≤ maxDigits)
    (read : integer? t = some i) : (Number.int i).IsSendable := by
  have suffix := signed_suffix t
  unfold integer? at read
  generalize signed t = parts at read suffix
  obtain ⟨negative, digits⟩ := parts
  dsimp only at read suffix
  split at read
  · rename_i isNumeral
    obtain ⟨nonempty, allDigits⟩ := isNumeral
    have positive := List.length_pos_of_ne_nil nonempty
    have count : digits.countP CodePoint.isDigit = digits.length :=
      List.countP_eq_length.mpr (List.all_eq_true.mp allDigits)
    have within : digits.length ≤ maxDigits :=
      count ▸ Nat.le_trans suffix.sublist.countP_le short
    have valid : Digits.Valid (digits.map CodePoint.digitValue) := by
      intro d member
      obtain ⟨c, -, rfl⟩ := List.mem_map.mp member
      exact c.digitValue_lt
    have size : i.natAbs = Digits.ofText digits := by
      rw [← Option.some.inj read]
      split <;> omega
    have small : i.natAbs < 10 ^ (digits.length - 1 + 1) := by
      have bound := Digits.value_lt _ valid
      rw [List.length_map] at bound
      rwa [size, Nat.sub_add_cancel positive]
    have length := Digits.length_onto_le i.natAbs [] (digits.length - 1) small
    show (Digits.onto i.natAbs []).length ≤ maxDigits
    rw [List.length_nil] at length
    omega
  · cases read

theorem ungrouped?_sublist (afterDigit : Bool) (t plain : Text)
    (read : ungrouped? afterDigit t = some plain) : plain.Sublist t := by
  induction t generalizing afterDigit plain with
  | nil =>
      cases read
      exact List.Sublist.refl _
  | cons c rest ih =>
      unfold ungrouped? at read
      split at read
      · split at read
        · exact (ih false plain read).cons c
        · cases read
      · obtain ⟨more, found, rfl⟩ := Option.map_eq_some_iff.mp read
        exact (ih _ more found).cons_cons c

theorem isSendable_of_groupedInteger? (t : Text) (i : Int) (read : groupedInteger? t = some i) :
    (Number.int i).IsSendable := by
  unfold groupedInteger? at read
  split at read
  · rename_i short
    obtain ⟨plain, ungrouped, isInteger⟩ := Option.bind_eq_some_iff.mp read
    have fewer : digitCount plain ≤ digitCount t :=
      (ungrouped?_sublist false t plain ungrouped).countP_le
    exact isSendable_of_integer? plain i (Nat.le_trans fewer short) isInteger
  · cases read

end Numeral

/-! ## Settings -/

/-- A policy whose limit of sessions can be told. -/
def Policy.IsSendable (policy : Policy) : Prop :=
  ∀ limit, policy.maxSessions = some limit → (Number.int limit).IsSendable

namespace Settings

theorem bind_eq_ok {ε α β : Type} (first : Except ε α) (rest : α → Except ε β) (b : β)
    (run : first >>= rest = .ok b) : ∃ a, first = .ok a ∧ rest a = .ok b := by
  cases first with
  | error e => cases run
  | ok a => exact ⟨a, rfl, run⟩

theorem setting_cases {α : Type} (env : Environment) (name : Text) (parse : Text → Option α)
    (default a : α) (accepted : setting env name parse default = .ok a) :
    a = default ∨ ∃ t, parse t = some a := by
  unfold setting at accepted
  split at accepted
  · exact .inl (Except.ok.inj accepted).symm
  · split at accepted
    · exact .inl (Except.ok.inj accepted).symm
    · split at accepted
      · rename_i parsed
        exact .inr ⟨_, Except.ok.inj accepted ▸ parsed⟩
      · cases accepted

/-- Whatever the environment sets: the policy that comes of it can be told. -/
theorem isSendable_of_ofEnvironment (env : Environment) (settings : Settings)
    (accepted : ofEnvironment env = .ok settings) :
    Policy.IsSendable ⟨settings.idleTimeout, settings.maxSessions⟩ := by
  obtain ⟨host, -, accepted⟩ := bind_eq_ok _ _ _ accepted
  obtain ⟨portNumber, -, accepted⟩ := bind_eq_ok _ _ _ accepted
  obtain ⟨idleTimeout, -, accepted⟩ := bind_eq_ok _ _ _ accepted
  obtain ⟨maxSessions, isSet, accepted⟩ := bind_eq_ok _ _ _ accepted
  obtain ⟨reaperInterval, -, accepted⟩ := bind_eq_ok _ _ _ accepted
  obtain ⟨logLevel, -, accepted⟩ := bind_eq_ok _ _ _ accepted
  cases accepted
  rintro limit rfl
  rcases setting_cases env _ _ _ _ isSet with default | ⟨t, parsed⟩
  · cases default
  · obtain ⟨n, read, isLimit⟩ := Option.map_eq_some_iff.mp parsed
    unfold limit? at isLimit
    split at isLimit
    · cases isLimit
    · rw [← Option.some.inj isLimit]
      exact Numeral.isSendable_of_groupedInteger? t n read

end Settings

end ParenCalc
