import ParenCalc.Proofs.Token.Marks
/-!
# Names and atoms

The names of symbols are the texts that scan as one atom, namely themselves.  Every atom of a scan
is therefore the name of a symbol, and where it does not begin like a number it denotes that symbol.
So a text may be refused for a mark, for its parentheses or for a number, and for having no datum or
too many, but never for a name.
-/
set_option autoImplicit false

namespace ParenCalc

/-! ## The names of symbols -/

/-- The marks that no name contains. -/
def CodePoint.delimiters : Text := "()\x22\x27;\x60,"

theorem CodePoint.isNamePart_iff (c : CodePoint) :
    c.isNamePart = true ↔ c.isBlank = false ∧ c ∉ delimiters := by
  have marks : delimiters = ['(', ')', '\x22', '\x27', ';', '\x60', ','].map ofChar := by decide
  simp [isNamePart, isDelimiter, marks, and_assoc]

theorem Text.isName_iff (t : Text) :
    t.isName = true ↔ t ≠ [] ∧ ∀ c ∈ t, c.isBlank = false ∧ c ∉ CodePoint.delimiters := by
  simp [isName, CodePoint.isNamePart_iff]

theorem Symbol.exists_ofText?_iff (t : Text) :
    (∃ x, ofText? t = some x) ↔ t.isName = true := by
  constructor
  · rintro ⟨x, made⟩
    rw [← (ofText?_eq_some_iff t x).mp made]
    exact x.isName
  · intro name
    exact ⟨⟨t, name⟩, (ofText?_eq_some_iff t _).mpr rfl⟩

/-! ## The atoms of a scan -/

theorem Divided.isName_of_mem (rest before t : Text) (tokens : List Token)
    (divided : Divided rest before t tokens) (name : Text) (member : Token.atom name ∈ tokens) :
    name.isName = true := by
  induction divided with
  | last before gap isGap => simp at member
  | token before gap token later tokens isGap stands _ ih =>
      rcases List.mem_cons.mp member with rfl | within
      · exact stands.1
      · exact ih within

namespace Scan

/-- Every atom of a text is a name, also where the scan ends with a fault behind it. -/
theorem isName_of_mem (t name : Text) (member : Token.atom name ∈ (ofText t).tokens) :
    name.isName = true := by
  rcases ofText_cases t with ⟨tokens, scanned, divided, -⟩ |
    ⟨front, c, more, tokens, -, scanned, divided, -, -⟩ <;>
  · rw [scanned] at member
    exact divided.isName_of_mem _ _ _ _ name member

theorem ofText_eq_atom_iff (t : Text) : ofText t = ⟨[.atom t], none⟩ ↔ t.isName = true := by
  constructor
  · intro scanned
    -- the text is an atom of its own scan
    exact isName_of_mem t t (by simp [scanned])
  · intro name
    exact ofText_of_spells t _ (spells_name t name)

end Scan

/-! ## What an atom denotes -/

namespace Datum

/-- The name of a symbol denotes this symbol, unless it begins like a number. -/
theorem ofAtom_name (x : Symbol) :
    ofAtom x.name =
      if Text.looksNumeric x.name then
        (Number.ofLiteral? x.name).elim (.error (.badNumber x.name)) fun n => .ok (.number n)
      else .ok (.symbol x) := by
  have made : Symbol.ofText? x.name = some x := (Symbol.ofText?_eq_some_iff x.name x).mpr rfl
  unfold ofAtom
  rw [made]
  cases Number.ofLiteral? x.name <;> rfl

theorem ofAtom_cases (x : Symbol) :
    (∃ n, ofAtom x.name = .ok (.number n)) ∨ ofAtom x.name = .error (.badNumber x.name) ∨
      ofAtom x.name = .ok (.symbol x) := by
  rw [ofAtom_name]
  split
  · cases Number.ofLiteral? x.name with
    | some n => exact .inl ⟨n, rfl⟩
    | none => exact .inr (.inl rfl)
  · exact .inr (.inr rfl)

end Datum

/-! ## What a text is refused for -/

namespace Scan

/-- The reasons for which data cannot be read from a scan: its fault, a parenthesis without its
partner, or an atom. -/
inductive Refuses (s : Scan) : Malformed → Prop
  | fault (cause : Malformed) : s.fault = some cause → Refuses s cause
  | unopened : Refuses s .unopened
  | unclosed : Refuses s .unclosed
  | atom (name : Text) (cause : Malformed) : Token.atom name ∈ s.tokens →
      Datum.ofAtom name = .error cause → Refuses s cause

theorem refuses_mono (s t : Scan) (tokens : s.tokens ⊆ t.tokens) (fault : s.fault = t.fault)
    (cause : Malformed) (refuses : s.Refuses cause) : t.Refuses cause := by
  cases refuses with
  | fault _ faulty => exact .fault cause (fault ▸ faulty)
  | unopened => exact .unopened
  | unclosed => exact .unclosed
  | atom name _ member refused => exact .atom name cause (tokens member) refused

theorem refuses_later (token : Token) (rest : List Token) (fault : Option Malformed)
    (cause : Malformed) (refuses : Refuses ⟨rest, fault⟩ cause) :
    Refuses ⟨token :: rest, fault⟩ cause :=
  refuses_mono ⟨rest, fault⟩ ⟨token :: rest, fault⟩ (List.subset_cons_self token rest) rfl cause
    refuses

theorem refuses_of_collect (fault : Option Malformed) (done : List Datum)
    (outer : List (List Datum)) (tokens : List Token) (cause : Malformed)
    (run : (collect fault done outer tokens).1 = .error cause) :
    Refuses ⟨tokens, fault⟩ cause := by
  induction tokens generalizing done outer with
  | nil =>
      rw [← Except.error.inj run]
      cases fault with
      | none => exact .unclosed
      | some mistake => exact .fault mistake rfl
  | cons token rest ih =>
      cases token with
      | opening => exact refuses_later _ rest fault cause (ih [] (done :: outer) run)
      | closing =>
          cases outer with
          | nil => cases run
          | cons above outer => exact refuses_later _ rest fault cause (ih _ outer run)
      | atom name =>
          cases value : Datum.ofAtom name with
          | error mistake =>
              simp only [collect, value, Except.error.injEq] at run
              exact .atom name cause List.mem_cons_self (run ▸ value)
          | ok d =>
              simp only [collect, value] at run
              exact refuses_later _ rest fault cause (ih (d :: done) outer run)

theorem error_of_map {α β : Type} (f : α → β) (x : Except Malformed α) (cause : Malformed)
    (failed : x.map f = .error cause) : x = .error cause := by
  cases x with
  | ok a => cases failed
  | error mistake => exact congrArg Except.error (Except.error.inj failed)

theorem refuses_of_next (s : Scan) (cause : Malformed) (run : s.next.1 = .error cause) :
    s.Refuses cause := by
  obtain ⟨tokens, fault⟩ := s
  match tokens with
  | [] =>
      cases fault with
      | none => cases run
      | some mistake => exact .fault cause (congrArg some (Except.error.inj run))
  | .closing :: rest =>
      rw [← Except.error.inj run]
      exact .unopened
  | .atom name :: rest =>
      exact .atom name cause List.mem_cons_self (error_of_map some _ cause run)
  | .opening :: rest =>
      have inside := error_of_map some _ cause run
      exact refuses_later _ rest fault cause (refuses_of_collect fault [] [] rest cause inside)

theorem refuses_of_peek (s : Scan) (cause : Malformed) (run : s.peek.1 = .error cause) :
    s.Refuses cause := by
  obtain ⟨tokens, fault⟩ := s
  cases tokens with
  | cons token rest => cases run
  | nil =>
      cases fault with
      | none => cases run
      | some mistake => exact .fault cause (congrArg some (Except.error.inj run))

/-- What is left when a datum has been read is refused for no other reasons than the whole. -/
theorem refuses_of_left (s after : Scan) (d : Datum) (run : s.next = (.ok (some d), after))
    (cause : Malformed) (refuses : after.Refuses cause) : s.Refuses cause := by
  obtain ⟨own, -, split, fault⟩ := next_sound s after d run
  refine refuses_mono after s ?_ fault cause refuses
  rw [split]
  exact List.subset_append_right own after.tokens

theorem refuses_of_forms (s : Scan) (cause : Malformed) (run : s.forms.fault = some cause) :
    s.Refuses cause := by
  match first : s.next with
  | (.error mistake, after) =>
      rw [forms_of_error s after mistake first, Option.some.injEq] at run
      exact refuses_of_next s cause (by rw [first, run])
  | (.ok none, after) =>
      rw [forms_of_none s after first] at run
      cases run
  | (.ok (some d), after) =>
      have shorter : after.tokens.length < s.tokens.length := length_next_lt s after d first
      rw [forms_of_some s after d first] at run
      exact refuses_of_left s after d first cause (refuses_of_forms after cause run)
termination_by s.tokens.length

/-- No text is refused for one of its names. -/
theorem not_refuses_badName (t : Text) (value : Datum) :
    ¬(ofText t).Refuses (.badName value) := by
  intro refuses
  cases refuses with
  | fault _ faulty =>
      obtain ⟨i, c, mark, -⟩ := (fault_eq_some_iff t _).mp faulty
      cases mark
  | atom name _ member refused =>
      -- an atom names a symbol, so that it can only be refused as a number
      have own := isName_of_mem t name member
      rcases Datum.ofAtom_cases ⟨name, own⟩ with ⟨n, denotes⟩ | denotes | denotes <;>
      · rw [denotes] at refused
        cases refused

end Scan

namespace Datum

/-- A text that does not read as one datum has a reason in its scan, or none or more data. -/
theorem refuses_of_read (t : Text) (cause : Malformed) (run : read t = .error cause) :
    (Scan.ofText t).Refuses cause ∨ cause = .empty t ∨ ∃ lexeme, cause = .trailing lexeme := by
  unfold read at run
  split at run
  · rename_i mistake after first
    rw [← Except.error.inj run]
    exact .inl (Scan.refuses_of_next _ mistake (by rw [first]))
  · exact .inr (.inl (Except.error.inj run).symm)
  · rename_i d after first
    split at run
    · rename_i mistake ended
      rw [← Except.error.inj run]
      exact .inl (Scan.refuses_of_left _ after d first mistake
        (Scan.refuses_of_peek after mistake ended))
    · cases run
    · rw [← Except.error.inj run]
      exact .inl .unopened
    · exact .inr (.inr ⟨_, (Except.error.inj run).symm⟩)

theorem refuses_of_readAll (t : Text) (cause : Malformed) (run : readAll t = .error cause) :
    (Scan.ofText t).Refuses cause := by
  unfold readAll Forms.all at run
  split at run
  · rename_i mistake fault
    rw [← Except.error.inj run]
    exact Scan.refuses_of_forms _ mistake fault
  · cases run

end Datum

/-- A text is the name of a symbol exactly when it scans without a fault into one atom that is the
whole text, which it does when it is not empty and has no blank and none of the seven delimiters in
it.  Every atom that a text scans into, be it before a fault, is the name of a symbol; it denotes a
number, or is refused as no number, or denotes this symbol.  So no text is refused for a name. -/
theorem names_and_atoms_agree (t : Text) :
    ((∃ x, Symbol.ofText? t = some x) ↔ Scan.ofText t = ⟨[.atom t], none⟩) ∧
    ((∃ x, Symbol.ofText? t = some x) ↔
      t ≠ [] ∧ ∀ c ∈ t, c.isBlank = false ∧ c ∉ CodePoint.delimiters) ∧
    (∀ name, Token.atom name ∈ (Scan.ofText t).tokens →
      ∃ x : Symbol, x.name = name ∧ Symbol.ofText? name = some x ∧
        ((∃ n, Datum.ofAtom name = .ok (.number n)) ∨
          Datum.ofAtom name = .error (.badNumber name) ∨
          Datum.ofAtom name = .ok (.symbol x))) ∧
    (∀ value, Datum.read t ≠ .error (.badName value) ∧
      Datum.readAll t ≠ .error (.badName value)) := by
  refine ⟨?_, ?_, ?_, ?_⟩
  · rw [Symbol.exists_ofText?_iff, Scan.ofText_eq_atom_iff]
  · rw [Symbol.exists_ofText?_iff, Text.isName_iff]
  · intro name member
    have own : name.isName = true := Scan.isName_of_mem t name member
    exact ⟨⟨name, own⟩, rfl, (Symbol.ofText?_eq_some_iff name _).mpr rfl,
      Datum.ofAtom_cases ⟨name, own⟩⟩
  · intro value
    refine ⟨fun run => ?_, fun run => ?_⟩
    · rcases Datum.refuses_of_read t _ run with refuses | empty | ⟨lexeme, trailing⟩
      · exact Scan.not_refuses_badName t value refuses
      · cases empty
      · cases trailing
    · exact Scan.not_refuses_badName t value (Datum.refuses_of_readAll t _ run)

/-- The atoms before a quotation mark are names as well: here a symbol, a double, and a text that
begins like a number and is none. -/
theorem atoms_before_quotation_mark_are_names :
    (Scan.ofText "(tax .5 1e3 'x").fault.isSome = true ∧
      ∀ name ∈ ["tax", ".5", "1e3"].map Text.ofString,
        Token.atom name ∈ (Scan.ofText "(tax .5 1e3 'x").tokens ∧
        ∃ x : Symbol, x.name = name ∧ Symbol.ofText? name = some x ∧
          ((∃ n, Datum.ofAtom name = .ok (.number n)) ∨
            Datum.ofAtom name = .error (.badNumber name) ∨
            Datum.ofAtom name = .ok (.symbol x)) := by
  obtain ⟨faulty, scanned⟩ : (Scan.ofText "(tax .5 1e3 'x").fault.isSome = true ∧
      ∀ name ∈ ["tax", ".5", "1e3"].map Text.ofString,
        Token.atom name ∈ (Scan.ofText "(tax .5 1e3 'x").tokens := by
    decide +kernel
  obtain ⟨-, -, atoms, -⟩ := names_and_atoms_agree "(tax .5 1e3 'x"
  exact ⟨faulty, fun name member => ⟨scanned name member, atoms name (scanned name member)⟩⟩

end ParenCalc
