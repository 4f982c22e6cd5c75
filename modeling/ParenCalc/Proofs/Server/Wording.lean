import ParenCalc.Proofs.Eval.Messages
import ParenCalc.Server.Reply
/-!
# The words of replies

A reply says what it has to say in words of its own and in texts that it quotes.  Its own words are
ASCII, numbers are, and what stands between quotation marks has scalar values only.  So a reply
splits no surrogate pair unless a text that it names as it is does.
-/
set_option autoImplicit false

namespace ParenCalc

namespace Text

theorem scalar_joined (separator : Text) (parts : List Text) (marks : separator.Scalar)
    (each : ∀ part ∈ parts, part.Scalar) : (joined separator parts).Scalar := by
  cases parts with
  | nil => exact scalar_nil
  | cons first rest =>
      rw [joined_cons]
      refine scalar_append _ _ (each first List.mem_cons_self) ?_
      intro c member
      obtain ⟨part, inRest, inPart⟩ := List.mem_flatMap.mp member
      have own := each part (List.mem_cons_of_mem first inRest)
      exact scalar_append separator part marks own c inPart

theorem scalar_quoted (t : Text) : t.quoted.Scalar :=
  scalar_of_printable _ (printable_quoted t)

theorem scalar_of_oneLine (t : Text) (oneLine : Json.OneLine t) : t.Scalar :=
  scalar_of_ascii t (Json.ascii_of_oneLine t oneLine)

end Text

/-- What stands between two words is scalar with them. -/
theorem Text.scalar_between (before after : String) (t : Text) (inside : t.Scalar) :
    ((before : Text) ++ t ++ (after : Text)).Scalar :=
  scalar_append _ _ (scalar_append _ _ (scalar_ofString before) inside) (scalar_ofString after)

theorem Text.scalar_separated (t rest : Text) (separator : String) (first : t.Scalar)
    (later : rest.Scalar) : (t ++ (separator : Text) ++ rest).Scalar :=
  scalar_append _ _ (scalar_append _ _ first (scalar_ofString separator)) later

/-- Words that name a text as it is. -/
theorem Text.unsplit_naming (words : String) (t : Text) (own : t.Unsplit) :
    ((words : Text) ++ t).Unsplit :=
  unsplit_append _ t (scalar_ofString words) own

theorem Text.unsplit_ofString (words : String) : (words : Text).Unsplit :=
  unsplit_of_scalar _ (scalar_ofString words)

theorem Foreign.scalar_truthText (b : Bool) : (truthText b).Scalar :=
  Text.scalar_of_oneLine _ (oneLine_truthText b)

namespace Datum

theorem scalar_quoted (d : Datum) : d.quoted.Scalar :=
  Text.scalar_of_printable _ d.printable_quoted

/-- A datum is shown as one of its texts, or as it is quoted. -/
theorem unsplit_shown (d : Datum) (own : ∀ t ∈ d.texts, t.Unsplit) : d.shown.Unsplit := by
  cases d with
  | symbol s => exact own s.name List.mem_cons_self
  | foreign v =>
      cases v with
      | text t => exact own t List.mem_cons_self
      | nothing => exact Text.unsplit_of_scalar _ (scalar_quoted (.foreign .nothing))
      | truth b => exact Text.unsplit_of_scalar _ (scalar_quoted (.foreign (.truth b)))
  | number n | list items => exact Text.unsplit_of_scalar _ (scalar_quoted _)

end Datum

namespace Json

mutual

theorem scalar_quoted : ∀ v : Json, v.quoted.Scalar
  | .null => Text.scalar_ofString _
  | .bool b => Foreign.scalar_truthText b
  | .number n => Text.scalar_of_oneLine _ n.oneLine_text
  | .string t => t.scalar_quoted
  | .array items =>
      Text.scalar_between _ _ _
        (Text.scalar_joined _ _ (Text.scalar_ofString _) (scalar_quotedItems items))
  | .object members =>
      Text.scalar_between _ _ _
        (Text.scalar_joined _ _ (Text.scalar_ofString _) (scalar_quotedMembers members))

theorem scalar_quotedItems : ∀ items : List Json, ∀ t ∈ quotedItems items, t.Scalar
  | [] => List.forall_mem_nil _
  | v :: rest => List.forall_mem_cons.mpr ⟨scalar_quoted v, scalar_quotedItems rest⟩

theorem scalar_quotedMembers : ∀ members : List (Text × Json),
    ∀ t ∈ quotedMembers members, t.Scalar
  | [] => List.forall_mem_nil _
  | (key, v) :: rest =>
      List.forall_mem_cons.mpr
        ⟨Text.scalar_separated _ _ _ key.scalar_quoted (scalar_quoted v),
          scalar_quotedMembers rest⟩

end

end Json

/-! ## Reports -/

def Detail.texts : Detail → List Text
  | .none | .limit _ => []
  | .text t | .name t | .session t => [t]
  | .operation operator _ => [operator]

/-- A report in which no surrogate pair is split. -/
structure Report.Unsplit (r : Report) : Prop where
  message : r.message.Unsplit
  detail : ∀ t ∈ r.detail.texts, t.Unsplit

theorem Text.wording_unsplit : Text.Wording Text.Unsplit where
  own t printable := unsplit_of_scalar t (scalar_of_printable t printable)
  naming words t printable unsplit :=
    unsplit_append words t (scalar_of_printable words printable) unsplit

namespace Malformed

theorem unsplit_text (cause : Malformed) (own : ∀ t ∈ cause.texts, t.Unsplit) :
    cause.text.Unsplit := by
  cases cause with
  | unexpected position c => exact own [c] List.mem_cons_self
  | badNumber t | trailing t | empty t | tooDeep t => exact own t List.mem_cons_self
  | unknownHead s | reserved s => exact own s.name List.mem_cons_self
  | badName d | defineTarget d | undefinable d => exact d.unsplit_shown own
  | headNoSymbol d | unbuildable d => exact Text.unsplit_of_scalar _ d.scalar_quoted
  | unsupportedLiteral b => exact Text.unsplit_of_scalar _ (Foreign.scalar_truthText b)
  | arity op count => exact Text.unsplit_of_scalar _ (Text.scalar_of_oneLine _ op.oneLine_name)
  | unopened | unclosed | emptyForm | defineShape | condShape => exact Text.unsplit_ofString _

end Malformed

/-- A report splits no pair, unless what it names does. -/
theorem Fault.unsplit_report (fault : Fault) (own : ∀ t ∈ fault.texts, t.Unsplit) :
    fault.report.Unsplit := by
  have message := fault.holds_message Text.wording_unsplit fun t member =>
    own t (fault.named_subset_texts member)
  have operator (op : Arithmetic) : ∀ t ∈ [op.symbol.name], t.Unsplit :=
    List.forall_mem_singleton.mpr
      (Text.unsplit_of_scalar _ (Text.scalar_of_oneLine _ (Operator.arithmetic op).oneLine_name))
  refine ⟨message, ?_⟩
  cases fault with
  | malformed cause => exact List.forall_mem_singleton.mpr (cause.unsplit_text own)
  | undefined name | sessionNotFound id => exact own
  | arithmetic cause => cases cause <;> exact operator _
  | sessionLimit limit | internal cause => exact List.forall_mem_nil _

end ParenCalc
