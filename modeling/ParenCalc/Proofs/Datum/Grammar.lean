import ParenCalc.Datum.Reader
/-!
# The grammar of data

`Renders tokens d` says that `tokens` are the datum `d` written out: an atom is one token, and a
list is its items one after another between two parentheses.  The reader works through tokens with
a stack of open lists.  It is shown to take exactly such a sequence off the front of a scan, so that
a text reads as some data exactly when it scans without a fault into what renders them.
-/
set_option autoImplicit false

namespace ParenCalc

mutual

/-- The tokens are the datum written out. -/
inductive Renders : List Token → Datum → Prop
  | atom (name : Text) (d : Datum) (value : Datum.ofAtom name = .ok d) : Renders [.atom name] d
  | list (tokens : List Token) (items : List Datum) (parts : RendersAll tokens items) :
      Renders (.opening :: (tokens ++ [.closing])) (.list items)

/-- The tokens are the data written out one after another. -/
inductive RendersAll : List Token → List Datum → Prop
  | nil : RendersAll [] []
  | cons (first rest : List Token) (d : Datum) (data : List Datum) (head : Renders first d)
      (tail : RendersAll rest data) : RendersAll (first ++ rest) (d :: data)

end

theorem rendersAll_singleton_iff (tokens : List Token) (d : Datum) :
    RendersAll tokens [d] ↔ Renders tokens d := by
  constructor
  · intro rendered
    cases rendered with
    | cons first rest _ _ head tail =>
        cases tail with
        | nil => rwa [List.append_nil]
  · intro rendered
    have whole := RendersAll.cons tokens [] d [] rendered .nil
    rwa [List.append_nil] at whole

namespace Scan

/-! ## What is written out is read -/

mutual

theorem collect_renders (fault : Option Malformed) (done : List Datum)
    (outer : List (List Datum)) (after : List Token) :
    ∀ (tokens : List Token) (d : Datum), Renders tokens d →
      collect fault done outer (tokens ++ after) = collect fault (d :: done) outer after
  | _, _, .atom name d value => by
      simp only [List.cons_append, List.nil_append, collect, value]
  | _, _, .list tokens items parts => by
      rw [List.cons_append, List.append_assoc, List.singleton_append, collect,
        collect_rendersAll fault [] (done :: outer) (Token.closing :: after) tokens items parts,
        List.append_nil, collect, List.reverse_reverse]

theorem collect_rendersAll (fault : Option Malformed) (done : List Datum)
    (outer : List (List Datum)) (after : List Token) :
    ∀ (tokens : List Token) (data : List Datum), RendersAll tokens data →
      collect fault done outer (tokens ++ after) = collect fault (data.reverse ++ done) outer after
  | _, _, .nil => rfl
  | _, _, .cons first rest d data head tail => by
      rw [List.append_assoc, collect_renders fault done outer (rest ++ after) first d head,
        collect_rendersAll fault (d :: done) outer after rest data tail, List.reverse_cons,
        List.append_assoc]
      rfl

end

theorem next_renders (fault : Option Malformed) (tokens after : List Token) (d : Datum)
    (rendered : Renders tokens d) :
    next ⟨tokens ++ after, fault⟩ = (.ok (some d), ⟨after, fault⟩) := by
  cases rendered with
  | atom name d value => simp [next, value, Except.map]
  | list tokens items parts =>
      have inside := collect_rendersAll fault [] [] (Token.closing :: after) tokens items parts
      rw [List.append_nil, collect, List.reverse_reverse] at inside
      rw [List.cons_append, List.append_assoc, List.singleton_append]
      simp [next, inside, Except.map]

/-! ## What is read was written out -/

/-- How reading goes on after a complete datum: it is the result when no list is open around it. -/
def complete (fault : Option Malformed) (d : Datum) :
    List (List Datum) → List Token → Except Malformed Datum × Scan
  | [], rest => (.ok d, ⟨rest, fault⟩)
  | above :: outer, rest => collect fault (d :: above) outer rest

theorem collect_closing (fault : Option Malformed) (done : List Datum)
    (outer : List (List Datum)) (rest : List Token) :
    collect fault done outer (.closing :: rest) =
      complete fault (.list done.reverse) outer rest := by
  cases outer <;> rfl

/-- Reading that succeeds inside a list has met the rest of its items and its closing parenthesis
before anything else.  The induction is on the number of tokens, since the list that an opening
parenthesis begins and what follows that list are both read from shorter sequences. -/
theorem collect_sound (fault : Option Malformed) (done : List Datum) (outer : List (List Datum))
    (tokens : List Token) (d : Datum) (after : Scan)
    (run : collect fault done outer tokens = (.ok d, after)) :
    ∃ own items rest, RendersAll own items ∧ tokens = own ++ .closing :: rest ∧
      complete fault (.list (done.reverse ++ items)) outer rest = (.ok d, after) := by
  match tokens with
  | [] => simp [collect] at run
  | .closing :: rest =>
      rw [collect_closing] at run
      exact ⟨[], [], rest, .nil, rfl, by rwa [List.append_nil]⟩
  | .atom name :: rest =>
      cases value : Datum.ofAtom name with
      | error cause => simp [collect, value] at run
      | ok item =>
          simp only [collect, value] at run
          obtain ⟨own, items, later, parts, split, final⟩ :=
            collect_sound fault (item :: done) outer rest d after run
          refine ⟨.atom name :: own, item :: items, later,
            .cons [.atom name] own item items (.atom name item value) parts, ?_, ?_⟩
          · rw [split, List.cons_append]
          · rwa [List.reverse_cons, List.append_assoc] at final
  | .opening :: rest =>
      simp only [collect] at run
      obtain ⟨inner, innerItems, middle, innerParts, innerSplit, innerFinal⟩ :=
        collect_sound fault [] (done :: outer) rest d after run
      have shorter : middle.length < rest.length := by
        rw [innerSplit, List.length_append, List.length_cons]
        omega
      simp only [complete, List.reverse_nil, List.nil_append] at innerFinal
      obtain ⟨own, items, later, parts, split, final⟩ :=
        collect_sound fault (.list innerItems :: done) outer middle d after innerFinal
      refine ⟨(.opening :: (inner ++ [.closing])) ++ own, .list innerItems :: items, later,
        .cons _ own _ items (.list inner innerItems innerParts) parts, ?_, ?_⟩
      · rw [innerSplit, split]
        simp
      · rwa [List.reverse_cons, List.append_assoc] at final
termination_by tokens.length

theorem next_sound (s after : Scan) (d : Datum) (run : s.next = (.ok (some d), after)) :
    ∃ own, Renders own d ∧ s.tokens = own ++ after.tokens ∧ after.fault = s.fault := by
  obtain ⟨tokens, fault⟩ := s
  cases tokens with
  | nil => cases fault <;> simp [next] at run
  | cons token rest =>
      cases token with
      | closing => simp [next] at run
      | atom name =>
          cases value : Datum.ofAtom name with
          | error cause => simp [next, value, Except.map] at run
          | ok item =>
              simp only [next, value, Except.map, Prod.mk.injEq, Except.ok.injEq,
                Option.some.injEq] at run
              obtain ⟨rfl, rfl⟩ := run
              exact ⟨[.atom name], .atom name item value, rfl, rfl⟩
      | opening =>
          cases inside : collect fault [] [] rest with
          | mk result left =>
              cases result with
              | error cause => simp [next, inside, Except.map] at run
              | ok item =>
                  simp only [next, inside, Except.map, Prod.mk.injEq, Except.ok.injEq,
                    Option.some.injEq] at run
                  obtain ⟨rfl, rfl⟩ := run
                  obtain ⟨own, items, later, parts, split, final⟩ :=
                    collect_sound fault [] [] rest item left inside
                  simp only [complete, List.reverse_nil, List.nil_append, Prod.mk.injEq,
                    Except.ok.injEq] at final
                  obtain ⟨rfl, rfl⟩ := final
                  refine ⟨.opening :: (own ++ [.closing]), .list own items parts, ?_, rfl⟩
                  simp [split]

theorem next_eq_none_iff (s after : Scan) :
    s.next = (.ok none, after) ↔ s.tokens = [] ∧ s.fault = none ∧ after = s := by
  obtain ⟨tokens, fault⟩ := s
  cases tokens with
  | nil => cases fault <;> simp [next, eq_comm]
  | cons token rest =>
      cases token with
      | closing => simp [next]
      | atom name => cases value : Datum.ofAtom name <;> simp [next, value, Except.map]
      | opening => cases inside : (collect fault [] [] rest).1 <;> simp [next, inside, Except.map]

/-! ## All data of a scan -/

theorem forms_of_some (s after : Scan) (d : Datum) (run : s.next = (.ok (some d), after)) :
    s.forms = ⟨d :: after.forms.data, after.forms.fault, after.forms.rest⟩ := by
  rw [forms]
  split <;> simp_all

theorem forms_of_none (s after : Scan) (run : s.next = (.ok none, after)) :
    s.forms = ⟨[], none, after⟩ := by
  rw [forms]
  split <;> simp_all

theorem forms_of_error (s after : Scan) (cause : Malformed)
    (run : s.next = (.error cause, after)) : s.forms = ⟨[], some cause, after⟩ := by
  rw [forms]
  split <;> simp_all

theorem forms_rendersAll (fault : Option Malformed) (after : List Token) :
    ∀ (tokens : List Token) (data : List Datum), RendersAll tokens data →
      forms ⟨tokens ++ after, fault⟩ =
        ⟨data ++ (forms ⟨after, fault⟩).data, (forms ⟨after, fault⟩).fault,
          (forms ⟨after, fault⟩).rest⟩
  | _, _, .nil => rfl
  | _, _, .cons first rest d data head tail => by
      have later := forms_rendersAll fault after rest data tail
      rw [List.append_assoc, forms_of_some _ _ d (next_renders fault first (rest ++ after) d head),
        later]
      rfl

/-- The data of a scan are written out at its front, and nothing is left behind them unless there is
a fault. -/
theorem forms_sound (s : Scan) :
    ∃ own left, RendersAll own s.forms.data ∧ s.tokens = own ++ left ∧
      (s.forms.fault = none → left = [] ∧ s.fault = none) := by
  match run : s.next with
  | (.error cause, after) =>
      rw [forms_of_error s after cause run]
      exact ⟨[], s.tokens, .nil, rfl, fun clear => by simp at clear⟩
  | (.ok none, after) =>
      obtain ⟨empty, clear, -⟩ := (next_eq_none_iff s after).mp run
      rw [forms_of_none s after run]
      exact ⟨[], s.tokens, .nil, rfl, fun _ => ⟨empty, clear⟩⟩
  | (.ok (some d), after) =>
      obtain ⟨first, head, split, sameFault⟩ := next_sound s after d run
      have shorter : after.tokens.length < s.tokens.length := length_next_lt s after d run
      obtain ⟨own, left, tail, rest, final⟩ := forms_sound after
      rw [forms_of_some s after d run]
      refine ⟨first ++ own, left, .cons first own d _ head tail, ?_, ?_⟩
      · rw [split, rest, List.append_assoc]
      · intro clear
        obtain ⟨nothing, noFault⟩ := final clear
        exact ⟨nothing, sameFault ▸ noFault⟩
termination_by s.tokens.length

theorem forms_all_eq_ok_iff (s : Scan) (data : List Datum) :
    s.forms.all = .ok data ↔ s.fault = none ∧ RendersAll s.tokens data := by
  constructor
  · intro run
    obtain ⟨own, left, rendered, split, final⟩ := forms_sound s
    cases fault : s.forms.fault with
    | some cause => simp [Forms.all, fault] at run
    | none =>
        obtain ⟨nothing, noFault⟩ := final fault
        simp only [Forms.all, fault, Except.ok.injEq] at run
        rw [split, nothing, List.append_nil, ← run]
        exact ⟨noFault, rendered⟩
  · rintro ⟨noFault, rendered⟩
    obtain ⟨tokens, fault⟩ := s
    subst noFault
    have whole := forms_rendersAll none [] tokens data rendered
    have ended : forms ⟨[], none⟩ = ⟨[], none, ⟨[], none⟩⟩ := forms_of_none _ _ rfl
    rw [List.append_nil, ended] at whole
    rw [whole, Forms.all, List.append_nil]

theorem eq_of_tokens (s other : Scan) (tokens : s.tokens = other.tokens)
    (fault : s.fault = other.fault) : s = other := by
  cases s
  cases other
  simp_all

theorem peek_eq_none_iff (s : Scan) : s.peek.1 = .ok none ↔ s.tokens = [] ∧ s.fault = none := by
  obtain ⟨tokens, fault⟩ := s
  cases tokens with
  | nil => cases fault <;> simp [peek]
  | cons token rest => simp [peek]

end Scan

namespace Datum

theorem readAll_eq_ok_iff (text : Text) (data : List Datum) :
    readAll text = .ok data ↔
      (Scan.ofText text).fault = none ∧ RendersAll (Scan.ofText text).tokens data :=
  Scan.forms_all_eq_ok_iff (Scan.ofText text) data

theorem read_eq_ok_iff (text : Text) (d : Datum) :
    read text = .ok d ↔
      (Scan.ofText text).fault = none ∧ Renders (Scan.ofText text).tokens d := by
  constructor
  · intro run
    unfold read at run
    split at run
    · simp at run
    · simp at run
    · rename_i item after first
      split at run
      · simp at run
      · rename_i ended
        obtain ⟨own, rendered, split, sameFault⟩ := Scan.next_sound _ after item first
        obtain ⟨nothing, noFault⟩ := (Scan.peek_eq_none_iff after).mp ended
        rw [split, nothing, List.append_nil, ← Except.ok.inj run]
        exact ⟨sameFault ▸ noFault, rendered⟩
      · simp at run
      · simp at run
  · rintro ⟨noFault, rendered⟩
    have first := Scan.next_renders none (Scan.ofText text).tokens [] d rendered
    rw [List.append_nil, ← noFault] at first
    simp [read, first, noFault, Scan.peek]

theorem read_of_scan (text : Text) (tokens : List Token) (d : Datum)
    (scanned : Scan.ofText text = ⟨tokens, none⟩) (rendered : Renders tokens d) :
    read text = .ok d := by
  rw [read_eq_ok_iff, scanned]
  exact ⟨rfl, rendered⟩

/-- Reading depends on the scan alone, but for the report on an empty text. -/
theorem read_congr (text other : Text) (same : Scan.ofText text = Scan.ofText other)
    (nonempty : (Scan.ofText text).tokens ≠ []) : read text = read other := by
  have notEmpty : ∀ after, (Scan.ofText text).next ≠ (.ok none, after) := fun after run =>
    nonempty ((Scan.next_eq_none_iff _ after).mp run).1
  unfold read
  rw [← same]
  split
  · rfl
  · rename_i after run
    exact absurd run (notEmpty after)
  · rfl

end Datum

/-- A text reads as data exactly when it scans without a fault into their renderings, and as one
datum exactly when it scans into the rendering of that datum alone; every other text is refused as
malformed.  Texts with the same tokens read alike. -/
theorem reads_iff_renders (text : Text) :
    (∀ data, Datum.readAll text = .ok data ↔
      (Scan.ofText text).fault = none ∧ RendersAll (Scan.ofText text).tokens data) ∧
    (∀ d, Datum.read text = .ok d ↔
      (Scan.ofText text).fault = none ∧ Renders (Scan.ofText text).tokens d) ∧
    (∀ d, Datum.read text = .ok d ↔ Datum.readAll text = .ok [d]) ∧
    ((∃ cause, Datum.readAll text = .error cause ∧
        (Fault.malformed cause).report.kind = .malformed) ↔
      ¬ ∃ data, (Scan.ofText text).fault = none ∧ RendersAll (Scan.ofText text).tokens data) ∧
    ((∃ cause, Datum.read text = .error cause ∧
        (Fault.malformed cause).report.kind = .malformed) ↔
      ¬ ∃ d, (Scan.ofText text).fault = none ∧ Renders (Scan.ofText text).tokens d) ∧
    (∀ other, (Scan.ofText text).fault = none → (Scan.ofText other).fault = none →
      (Scan.ofText text).tokens = (Scan.ofText other).tokens →
        Datum.readAll text = Datum.readAll other ∧
          (Datum.read text = Datum.read other ∨
            Datum.read text = .error (.empty text) ∧
              Datum.read other = .error (.empty other))) := by
  refine ⟨Datum.readAll_eq_ok_iff text, Datum.read_eq_ok_iff text, ?_, ?_, ?_, ?_⟩
  · intro d
    rw [Datum.read_eq_ok_iff, Datum.readAll_eq_ok_iff, rendersAll_singleton_iff]
  · simp only [← Datum.readAll_eq_ok_iff]
    cases run : Datum.readAll text with
    | error cause => simp [Fault.report, Report.malformed]
    | ok data => simp
  · simp only [← Datum.read_eq_ok_iff]
    cases run : Datum.read text with
    | error cause => simp [Fault.report, Report.malformed]
    | ok d => simp
  · intro other clear otherClear sameTokens
    have same : Scan.ofText text = Scan.ofText other :=
      Scan.eq_of_tokens _ _ sameTokens (clear.trans otherClear.symm)
    refine ⟨by rw [Datum.readAll, Datum.readAll, same], ?_⟩
    by_cases empty : (Scan.ofText text).tokens = []
    · have ended : Scan.ofText text = ⟨[], none⟩ := Scan.eq_of_tokens _ _ empty clear
      refine .inr ⟨?_, ?_⟩
      · simp [Datum.read, ended, Scan.next]
      · simp [Datum.read, ← same, ended, Scan.next]
    · exact .inl (Datum.read_congr text other same empty)

end ParenCalc
