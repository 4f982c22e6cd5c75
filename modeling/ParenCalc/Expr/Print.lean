import ParenCalc.Expr
/-!
# Printing expressions

`source` writes an expression on one line.  `layout` breaks what does not fit: a form that fits the
width stays on one line, and otherwise each of its parts stands on a line of its own, indented one
step further.
-/
set_option autoImplicit false

namespace ParenCalc

namespace Expr

def head : Expr → Text
  | .definition name _ => Symbol.define.name ++ " " ++ name.name
  | .conditional .. => Symbol.cond.name
  | .application operator _ => operator.name
  | _ => []

def joinedForm (head : Text) (parts : List Text) : Text :=
  "(" ++ head ++ parts.flatMap (fun part => CodePoint.ofChar ' ' :: part) ++ ")"

mutual

def source : Expr → Text
  | .literal n => n.literal
  | .reference s => s.name
  | .definition name value => joinedForm (head (.definition name value)) [value.source]
  | .conditional test yes no =>
    joinedForm (head (.conditional test yes no)) [test.source, yes.source, no.source]
  | .application operator arguments =>
    joinedForm (head (.application operator arguments)) (sources arguments)
  | .alien d => d.quoted

def sources : List Expr → List Text
  | [] => []
  | e :: rest => e.source :: sources rest

end

/-- How wide a line may be, and how far one level of a form stands to the right of its parent. -/
structure Page where
  indent : Int
  width : Int

def Page.standard : Page := ⟨2, 80⟩

/-- The blanks before a part at some level. -/
def Page.margin (page : Page) (level : Nat) : Text :=
  List.replicate ((level : Int) * page.indent).toNat (CodePoint.ofChar ' ')

def Page.fits (page : Page) (level : Nat) (text : Text) : Bool :=
  (text.length : Int) + level * page.indent ≤ page.width

/-- A form at some level: on one line if it fits, else each part on a line of its own. -/
def Page.form (page : Page) (level : Nat) (head flat : Text) (parts : List Text) : Text :=
  if page.fits level flat then flat
  else
    "(" ++ head ++
      parts.flatMap (fun part => CodePoint.ofChar '\n' :: page.margin (level + 1) ++ part) ++ ")"

mutual

/-- The expression on as many lines as the page asks for. -/
def layout (page : Page) (level : Nat) : Expr → Text
  | .definition name value =>
    page.form level (head (.definition name value)) (source (.definition name value))
      [layout page (level + 1) value]
  | .conditional test yes no =>
    page.form level (head (.conditional test yes no)) (source (.conditional test yes no))
      [layout page (level + 1) test, layout page (level + 1) yes, layout page (level + 1) no]
  | .application operator arguments =>
    page.form level (head (.application operator arguments))
      (source (.application operator arguments)) (layouts page (level + 1) arguments)
  | e => e.source

def layouts (page : Page) (level : Nat) : List Expr → List Text
  | [] => []
  | e :: rest => layout page level e :: layouts page level rest

end

/-- A printed expression, or the alien node that keeps it from being printed. -/
def printed (e : Expr) (text : Text) : Except Failure Text :=
  match e.alien? with
  | some d => .error (.fault (.internal (.notExpression d)))
  | none => .ok text

end Expr

end ParenCalc
