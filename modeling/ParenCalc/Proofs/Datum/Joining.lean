import ParenCalc.Proofs.Datum.Writing
/-!
# Texts joined by a line end

A line end separates: no comment and no atom runs across it.  So a text that scans without a fault,
a line end and any other text scan into the tokens of the one and then those of the other; only the
position of a fault is another.  The data of the joined text are accordingly those of its parts.
-/
set_option autoImplicit false

namespace ParenCalc

/-! ## Positions -/

/-- The fault as it is reported some places further on. -/
def Malformed.moved (distance : Nat) : Malformed → Malformed
  | .unexpected position c => .unexpected (position + distance) c
  | cause => cause

namespace Scan

def moved (distance : Nat) (s : Scan) : Scan := ⟨s.tokens, s.fault.map (Malformed.moved distance)⟩

theorem moved_cons (distance : Nat) (token : Token) (s : Scan) :
    (cons token s).moved distance = cons token (s.moved distance) := rfl

@[simp]
theorem ofTextFrom_comment (position : Nat) (rest : Text) :
    ofTextFrom position (CodePoint.ofChar ';' :: rest) =
      ofTextFrom (position + 1 + (rest.takeWhile inComment).length) (rest.dropWhile inComment) := by
  rw [ofTextFrom, if_neg (by decide), if_pos rfl]

theorem ofTextFrom_add (position distance : Nat) (t : Text) :
    ofTextFrom (position + distance) t = (ofTextFrom position t).moved distance := by
  fun_induction ofTextFrom position t with
  | case1 position => simp [ofTextFrom, moved]
  | case2 position c rest blank ih =>
      rw [ofTextFrom_blank _ c rest blank, Nat.add_right_comm, ih]
  | case3 position rest solid ih =>
      rw [ofTextFrom_comment, Nat.add_right_comm position, Nat.add_right_comm (position + 1), ih]
  | case4 position rest solid notComment ih =>
      rw [ofTextFrom_opening, Nat.add_right_comm, ih, moved_cons]
  | case5 position rest solid notComment notOpening ih =>
      rw [ofTextFrom_closing, Nat.add_right_comm, ih, moved_cons]
  | case6 position c rest solid notComment notOpening notClosing part more ih =>
      rw [ofTextFrom_name _ c rest part, Nat.add_right_comm position,
        Nat.add_right_comm (position + 1), ih, moved_cons]
  | case7 position c rest solid notComment notOpening notClosing noPart =>
      rw [ofTextFrom, if_neg solid, if_neg notComment, if_neg notOpening, if_neg notClosing,
        if_neg noPart]
      rfl

/-! ## The seam -/

/-- The place behind a code point, the run that it begins and what is left of the text. -/
theorem place_behind (p : CodePoint → Bool) (position : Nat) (rest : Text) :
    position + 1 + (rest.takeWhile p).length + (rest.dropWhile p).length =
      position + (rest.length + 1) := by
  have whole : (rest.takeWhile p).length + (rest.dropWhile p).length = rest.length := by
    rw [← List.length_append, List.takeWhile_append_dropWhile]
  omega

/-- A scan that goes on with another one, unless it has ended with a fault. -/
def followedBy (s t : Scan) : Scan :=
  match s.fault with
  | none => prepend s.tokens t
  | some _ => s

theorem followedBy_cons (token : Token) (s t : Scan) :
    (cons token s).followedBy t = cons token (s.followedBy t) := by
  obtain ⟨tokens, fault⟩ := s
  cases fault <;> rfl

theorem followedBy_nothing (s : Scan) : s.followedBy ⟨[], none⟩ = s := by
  obtain ⟨tokens, fault⟩ := s
  cases fault with
  | none => simp [followedBy, prepend]
  | some cause => rfl

/-- What follows a text on a new line is scanned for itself, unless the text ends with a fault. -/
theorem ofTextFrom_append_line (position : Nat) (first second : Text) :
    ofTextFrom position (first ++ CodePoint.ofChar '\n' :: second) =
      (ofTextFrom position first).followedBy (ofTextFrom (position + first.length + 1) second) := by
  fun_induction ofTextFrom position first with
  | case1 position =>
      rw [List.nil_append, ofTextFrom_blank _ _ _ (by decide)]
      rfl
  | case2 position c rest blank ih =>
      rw [List.cons_append, ofTextFrom_blank _ c _ blank, ih, List.length_cons,
        Nat.add_right_comm position, Nat.add_assoc position]
  | case3 position rest solid ih =>
      have ends : inComment (CodePoint.ofChar '\n') = false := by decide
      rw [List.cons_append, ofTextFrom_comment, Text.takeWhile_before _ _ _ _ ends,
        Text.dropWhile_before _ _ _ _ ends, ih, List.length_cons, place_behind]
  | case4 position rest solid notComment ih =>
      rw [List.cons_append, ofTextFrom_opening, ih, List.length_cons, followedBy_cons,
        Nat.add_right_comm position, Nat.add_assoc position]
  | case5 position rest solid notComment notOpening ih =>
      rw [List.cons_append, ofTextFrom_closing, ih, List.length_cons, followedBy_cons,
        Nat.add_right_comm position, Nat.add_assoc position]
  | case6 position c rest solid notComment notOpening notClosing part more ih =>
      have ends : CodePoint.isNamePart (CodePoint.ofChar '\n') = false := by decide
      rw [List.cons_append, ofTextFrom_name _ c _ part, Text.takeWhile_before _ _ _ _ ends,
        Text.dropWhile_before _ _ _ _ ends, ih, List.length_cons, followedBy_cons, place_behind]
  | case7 position c rest solid notComment notOpening notClosing noPart =>
      rw [List.cons_append, ofTextFrom, if_neg solid, if_neg notComment, if_neg notOpening,
        if_neg notClosing, if_neg noPart]
      rfl

/-- The tokens of a text that scans without a fault and of any text on the lines after it. -/
theorem ofText_append_line (first second : Text) (clear : (ofText first).fault = none) :
    ofText (first ++ CodePoint.ofChar '\n' :: second) =
      prepend (ofText first).tokens ((ofText second).moved (first.length + 1)) := by
  rw [ofText, ofTextFrom_append_line 0 first second, ← ofText, followedBy, clear, Nat.add_assoc,
    ofTextFrom_add]
  rfl

/-- A line scans with its end as it does without. -/
theorem ofText_line (first : Text) : ofText (first ++ [CodePoint.ofChar '\n']) = ofText first := by
  have nothing (position : Nat) : ofTextFrom position [] = ⟨[], none⟩ := by rw [ofTextFrom]
  rw [ofText, ofTextFrom_append_line 0 first [], nothing, followedBy_nothing, ofText]

/-! ## The data on both sides -/

theorem next_of_tokens (s t after : Scan) (d : Datum) (tokens : s.tokens = t.tokens)
    (run : s.next = (.ok (some d), after)) : t.next = (.ok (some d), ⟨after.tokens, t.fault⟩) := by
  obtain ⟨own, rendered, split, -⟩ := next_sound s after d run
  have read := next_renders t.fault own after.tokens d rendered
  rwa [← split, tokens] at read

/-- Scans of the same tokens read as the same data; whether they end with a fault does not depend on
which fault the scan ends with. -/
theorem forms_congr (s t : Scan) (tokens : s.tokens = t.tokens)
    (fault : s.fault.isSome = t.fault.isSome) :
    s.forms.data = t.forms.data ∧ s.forms.fault.isSome = t.forms.fault.isSome := by
  match run : s.next with
  | (.ok (some d), after) =>
      have other := next_of_tokens s t after d tokens run
      obtain ⟨-, -, -, sameFault⟩ := next_sound s after d run
      have shorter : after.tokens.length < s.tokens.length := length_next_lt s after d run
      have later := forms_congr after ⟨after.tokens, t.fault⟩ rfl (by rw [sameFault, fault])
      rw [forms_of_some s after d run, forms_of_some t _ d other]
      exact ⟨congrArg (d :: ·) later.1, later.2⟩
  | (.ok none, after) =>
      obtain ⟨empty, clear, -⟩ := (next_eq_none_iff s after).mp run
      have other : t.next = (.ok none, t) := by
        rw [next_eq_none_iff, ← tokens]
        refine ⟨empty, ?_, rfl⟩
        simpa [clear] using fault.symm
      rw [forms_of_none s after run, forms_of_none t t other]
      exact ⟨rfl, rfl⟩
  | (.error cause, after) =>
      rw [forms_of_error s after cause run]
      match otherRun : t.next with
      | (.error otherCause, otherAfter) =>
          rw [forms_of_error t otherAfter otherCause otherRun]
          exact ⟨rfl, rfl⟩
      | (.ok none, otherAfter) =>
          obtain ⟨empty, clear, -⟩ := (next_eq_none_iff t otherAfter).mp otherRun
          have other : s.next = (.ok none, s) := by
            rw [next_eq_none_iff, tokens]
            refine ⟨empty, ?_, rfl⟩
            simpa [clear] using fault
          simp [run] at other
      | (.ok (some d), otherAfter) =>
          have other := next_of_tokens t s otherAfter d tokens.symm otherRun
          simp [run] at other
termination_by s.tokens.length

/-- The data of a text that reads without a fault and of any text on the lines after it. -/
theorem forms_append_line (first second : Text) (clear : (ofText first).forms.fault = none) :
    (ofText (first ++ "\n" ++ second)).forms.data =
        (ofText first).forms.data ++ (ofText second).forms.data ∧
      (ofText (first ++ "\n" ++ second)).forms.fault.isSome =
        (ofText second).forms.fault.isSome := by
  obtain ⟨own, left, rendered, split, final⟩ := forms_sound (ofText first)
  obtain ⟨nothing, noFault⟩ := final clear
  have whole : first ++ Text.ofString "\n" ++ second = first ++ CodePoint.ofChar '\n' :: second := by
    rw [List.append_assoc]
    rfl
  have later := forms_congr ((ofText second).moved (first.length + 1)) (ofText second) rfl
    (Option.isSome_map ..)
  rw [nothing, List.append_nil] at split
  rw [whole, ofText_append_line first second noFault, split, prepend,
    forms_rendersAll _ _ own _ rendered]
  exact ⟨congrArg _ later.1, later.2⟩

theorem forms_nil : (ofText []).forms = ⟨[], none, ⟨[], none⟩⟩ := by
  rw [ofText, ofTextFrom]
  exact forms_of_none _ _ rfl

/-- A text that reads as one datum has that datum and no other. -/
theorem forms_of_read (text : Text) (d : Datum) (run : Datum.read text = .ok d) :
    (ofText text).forms.data = [d] ∧ (ofText text).forms.fault = none := by
  obtain ⟨noFault, rendered⟩ := (Datum.read_eq_ok_iff text d).mp run
  have all := (Datum.readAll_eq_ok_iff text [d]).mpr
    ⟨noFault, (rendersAll_singleton_iff _ d).mpr rendered⟩
  simp only [Datum.readAll, Forms.all] at all
  cases fault : (ofText text).forms.fault with
  | some cause => simp [fault] at all
  | none => exact ⟨by simpa [fault] using all, rfl⟩

end Scan

end ParenCalc
