import Mathlib.Data.List.Forall2
import ParenCalc.Proofs.Datum.Grammar
import ParenCalc.Proofs.Text.Runs
/-!
# Texts that write data

`Spells t tokens` says that a text scans into some tokens in front of anything that does not carry
on its last atom, and `Writes t d` that these tokens are a datum written out.  Both are put together
from parts: blanks spell nothing, a name spells itself, and a list is written by its items with
blanks before them between two parentheses.  What a text writes is what it reads as.
-/
set_option autoImplicit false

namespace ParenCalc

namespace Scan

/-- The scan with some tokens in front of it. -/
def prepend (tokens : List Token) (s : Scan) : Scan := ⟨tokens ++ s.tokens, s.fault⟩

/-! ## One token -/

@[simp]
theorem ofTextFrom_blank (position : Nat) (c : CodePoint) (rest : Text) (blank : c.isBlank = true) :
    ofTextFrom position (c :: rest) = ofTextFrom (position + 1) rest := by
  rw [ofTextFrom, if_pos blank]

@[simp]
theorem ofTextFrom_opening (position : Nat) (rest : Text) :
    ofTextFrom position (CodePoint.ofChar '(' :: rest) =
      cons .opening (ofTextFrom (position + 1) rest) := by
  rw [ofTextFrom, if_neg (by decide), if_neg (by decide), if_pos rfl]

@[simp]
theorem ofTextFrom_closing (position : Nat) (rest : Text) :
    ofTextFrom position (CodePoint.ofChar ')' :: rest) =
      cons .closing (ofTextFrom (position + 1) rest) := by
  rw [ofTextFrom, if_neg (by decide), if_neg (by decide), if_neg (by decide), if_pos rfl]

@[simp]
theorem ofTextFrom_name (position : Nat) (c : CodePoint) (rest : Text)
    (part : c.isNamePart = true) :
    ofTextFrom position (c :: rest) =
      cons (.atom (c :: rest.takeWhile CodePoint.isNamePart))
        (ofTextFrom (position + 1 + (rest.takeWhile CodePoint.isNamePart).length)
          (rest.dropWhile CodePoint.isNamePart)) := by
  have parts : c.isBlank = false ∧ c.isDelimiter = false := by
    simpa [CodePoint.isNamePart] using part
  have marks : c ≠ CodePoint.ofChar '(' ∧ c ≠ CodePoint.ofChar ')' ∧ c ≠ CodePoint.ofChar ';' := by
    refine ⟨?_, ?_, ?_⟩ <;>
    · intro same
      rw [same] at parts
      exact absurd parts.2 (by decide)
  obtain ⟨notOpening, notClosing, notComment⟩ := marks
  rw [ofTextFrom, if_neg (by simp [parts.1]), if_neg notComment, if_neg notOpening,
    if_neg notClosing, if_pos part]

end Scan

/-! ## Spelling -/

/-- The text scans into the tokens, whatever follows that does not carry on its last atom. -/
def Spells (t : Text) (tokens : List Token) : Prop :=
  ∀ (position : Nat) (rest : Text), Text.Stops CodePoint.isNamePart rest →
    Scan.ofTextFrom position (t ++ rest) =
      Scan.prepend tokens (Scan.ofTextFrom (position + t.length) rest)

theorem isNamePart_of_isBlank (c : CodePoint) (blank : c.isBlank = true) :
    c.isNamePart = false := by
  simp [CodePoint.isNamePart, blank]

theorem ofText_of_spells (t : Text) (tokens : List Token) (spelled : Spells t tokens) :
    Scan.ofText t = ⟨tokens, none⟩ := by
  have whole := spelled 0 [] (Text.stops_nil _)
  rw [List.append_nil, Scan.ofTextFrom, Scan.prepend, List.append_nil] at whole
  exact whole

theorem spells_nil : Spells [] [] := by
  intro position rest _
  rfl

theorem spells_name (t : Text) (name : Text.isName t = true) : Spells t [.atom t] := by
  intro position rest ends
  cases t with
  | nil => simp [Text.isName] at name
  | cons c more =>
      have parts : c.isNamePart = true ∧ ∀ part ∈ more, part.isNamePart = true := by
        simpa [Text.isName] using name
      have size : position + (c :: more).length = position + 1 + more.length := by
        rw [List.length_cons]
        omega
      rw [List.cons_append, Scan.ofTextFrom_name position c (more ++ rest) parts.1,
        Text.takeWhile_append _ more rest parts.2 ends,
        Text.dropWhile_append _ more rest parts.2 ends, size]
      rfl

theorem spells_gap (gap t : Text) (tokens : List Token) (blank : ∀ c ∈ gap, c.isBlank = true)
    (spelled : Spells t tokens) : Spells (gap ++ t) tokens := by
  induction gap with
  | nil => exact spelled
  | cons c gap ih =>
      intro position rest ends
      have later := ih (fun d member => blank d (List.mem_cons_of_mem c member)) (position + 1) rest
        ends
      rw [List.cons_append, List.cons_append,
        Scan.ofTextFrom_blank _ _ _ (blank c (List.mem_cons_self ..)), later, List.length_cons,
        Nat.add_assoc, Nat.add_comm 1]

theorem spells_append (t more : Text) (tokens moreTokens : List Token) (spelled : Spells t tokens)
    (moreSpelled : Spells more moreTokens) (ends : Text.Stops CodePoint.isNamePart more) :
    Spells (t ++ more) (tokens ++ moreTokens) := by
  intro position rest restEnds
  rw [List.append_assoc, spelled position _ (Text.stops_append _ more rest ends restEnds),
    moreSpelled _ rest restEnds, List.length_append, Nat.add_assoc]
  simp [Scan.prepend]

theorem spells_opening (t : Text) (tokens : List Token) (spelled : Spells t tokens) :
    Spells (CodePoint.ofChar '(' :: t) (.opening :: tokens) := by
  intro position rest ends
  rw [List.cons_append, Scan.ofTextFrom_opening, spelled _ rest ends, List.length_cons,
    Nat.add_right_comm, Nat.add_assoc]
  rfl

theorem spells_closing : Spells [CodePoint.ofChar ')'] [.closing] := by
  intro position rest _
  rw [List.singleton_append, Scan.ofTextFrom_closing]
  rfl

/-! ## Writing -/

/-- The text scans into the datum written out. -/
def Writes (t : Text) (d : Datum) : Prop := ∃ tokens, Spells t tokens ∧ Renders tokens d

/-- The text scans into the data written out one after another. -/
def WritesAll (t : Text) (data : List Datum) : Prop :=
  ∃ tokens, Spells t tokens ∧ RendersAll tokens data

theorem read_of_writes (t : Text) (d : Datum) (written : Writes t d) : Datum.read t = .ok d := by
  obtain ⟨tokens, spelled, rendered⟩ := written
  exact Datum.read_of_scan t tokens d (ofText_of_spells t tokens spelled) rendered

theorem rendersAll_append (tokens moreTokens : List Token) (data more : List Datum)
    (rendered : RendersAll tokens data) (moreRendered : RendersAll moreTokens more) :
    RendersAll (tokens ++ moreTokens) (data ++ more) := by
  induction data generalizing tokens with
  | nil =>
      cases rendered
      exact moreRendered
  | cons d data ih =>
      cases rendered with
      | cons first rest _ _ head tail =>
          rw [List.append_assoc]
          exact .cons first _ d _ head (ih rest tail)

theorem writes_atom (t : Text) (d : Datum) (name : Text.isName t = true)
    (value : Datum.ofAtom t = .ok d) : Writes t d :=
  ⟨[.atom t], spells_name t name, .atom t d value⟩

theorem writesAll_of_writes (t : Text) (d : Datum) (written : Writes t d) : WritesAll t [d] := by
  obtain ⟨tokens, spelled, rendered⟩ := written
  exact ⟨tokens, spelled, (rendersAll_singleton_iff tokens d).mpr rendered⟩

theorem writesAll_append (t more : Text) (data moreData : List Datum) (written : WritesAll t data)
    (moreWritten : WritesAll more moreData) (ends : Text.Stops CodePoint.isNamePart more) :
    WritesAll (t ++ more) (data ++ moreData) := by
  obtain ⟨tokens, spelled, rendered⟩ := written
  obtain ⟨moreTokens, moreSpelled, moreRendered⟩ := moreWritten
  exact ⟨tokens ++ moreTokens, spells_append t more _ _ spelled moreSpelled ends,
    rendersAll_append _ _ _ _ rendered moreRendered⟩

section Gap

variable (gap : Text) (blank : ∀ c ∈ gap, c.isBlank = true) (nonempty : gap ≠ [])

include blank nonempty

theorem stops_gap (t : Text) : Text.Stops CodePoint.isNamePart (gap ++ t) := by
  cases gap with
  | nil => exact absurd rfl nonempty
  | cons c gap =>
      exact Text.stops_cons _ c (gap ++ t)
        (isNamePart_of_isBlank c (blank c (List.mem_cons_self ..)))

theorem writesAll_items (parts : List Text) (items : List Datum)
    (written : List.Forall₂ Writes parts items) :
    WritesAll (parts.flatMap fun part => gap ++ part) items ∧
      Text.Stops CodePoint.isNamePart (parts.flatMap fun part => gap ++ part) := by
  induction written with
  | nil => exact ⟨⟨[], spells_nil, .nil⟩, Text.stops_nil _⟩
  | @cons part item parts items head _ ih =>
      obtain ⟨tokens, spelled, rendered⟩ := head
      have own : Writes (gap ++ part) item :=
        ⟨tokens, spells_gap gap part tokens blank spelled, rendered⟩
      rw [List.flatMap_cons]
      exact ⟨writesAll_append _ _ [item] items (writesAll_of_writes _ item own) ih.1 ih.2,
        Text.stops_append _ _ _ (stops_gap gap blank nonempty part) ih.2⟩

/-- A list is written by what its first items are written by, and by its other items with blanks
before each of them, between two parentheses. -/
theorem writes_list (front : Text) (frontItems : List Datum) (written : WritesAll front frontItems)
    (parts : List Text) (items : List Datum) (partsWritten : List.Forall₂ Writes parts items) :
    Writes (CodePoint.ofChar '(' :: (front ++ (parts.flatMap fun part => gap ++ part) ++
      [CodePoint.ofChar ')'])) (.list (frontItems ++ items)) := by
  obtain ⟨rest, stops⟩ := writesAll_items gap blank nonempty parts items partsWritten
  obtain ⟨tokens, spelled, rendered⟩ := writesAll_append _ _ _ _ written rest stops
  refine ⟨_, spells_opening _ _ (spells_append _ _ _ _ spelled spells_closing ?_),
    .list tokens _ rendered⟩
  exact Text.stops_cons _ _ _ (by decide)

end Gap

end ParenCalc
