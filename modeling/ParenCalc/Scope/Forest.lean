import ParenCalc.Scope
/-!
# Forests of frames

Frames are numbered in the order of their making.  A frame is a root or lies inside an older frame,
and several may share one.
-/
set_option autoImplicit false

namespace ParenCalc

structure Forest.Node where
  outer : Option Nat
  frame : Frame

/-- The frames, the newest first: the number of a frame is the count of those older than it. -/
structure Forest where
  nodes : List Forest.Node

namespace Forest

def empty : Forest := ⟨[]⟩

def size (f : Forest) : Nat := f.nodes.length

def addRoot (f : Forest) : Forest := ⟨⟨none, .empty⟩ :: f.nodes⟩

def addChild (f : Forest) (outer : Nat) : Forest := ⟨⟨some outer, .empty⟩ :: f.nodes⟩

/-- The frame numbered `i` among some nodes and the frames around it, each with its number.
Only an older frame can be around a frame. -/
def chainIn (i : Nat) : List Node → List (Nat × Frame)
  | [] => []
  | node :: older =>
    if i = older.length then
      (i, node.frame) ::
        match node.outer with
        | some j => chainIn j older
        | none => []
    else chainIn i older

def chain (f : Forest) (i : Nat) : List (Nat × Frame) := chainIn i f.nodes

def scope? (f : Forest) (i : Nat) : Option Scope :=
  match f.chain i with
  | [] => none
  | entry :: outer => some ⟨entry.2, outer.map Prod.snd⟩

def replaceIn (i : Nat) (frame : Frame) : List Node → List Node
  | [] => []
  | node :: older =>
    if i = older.length then { node with frame := frame } :: older
    else node :: replaceIn i frame older

def replace (f : Forest) (i : Nat) (frame : Frame) : Forest := ⟨replaceIn i frame f.nodes⟩

/-- The number of the nearest frame from `i` outwards that binds a symbol. -/
def find? (f : Forest) (i : Nat) (x : Symbol) : Option Nat :=
  ((f.chain i).find? fun entry => entry.2.contains x).map Prod.fst

def lookup? (f : Forest) (i : Nat) (x : Symbol) : Option Number :=
  Scope.lookupIn? x ((f.chain i).map Prod.snd)

def define (f : Forest) (i : Nat) (x : Symbol) (value : Number) : Forest :=
  match f.scope? i with
  | some s => f.replace i (s.frame.insert x value)
  | none => f

/-- A symbol that a caller gives as a datum: nothing else names a variable, and a list cannot even
be looked for. -/
def nameOf (d : Datum) : Except Failure (Option Symbol) :=
  match d with
  | .symbol x => .ok (some x)
  | .list _ => .error (.misuse .listAsName)
  | _ => .ok none

def lookup (f : Forest) (i : Nat) (key : Datum) : Except Failure Number :=
  match nameOf key with
  | .error failure => .error failure
  | .ok x =>
    match x.bind (f.lookup? i) with
    | some value => .ok value
    | none => .error (.fault (.undefined key.shown))

def find (f : Forest) (i : Nat) (key : Datum) : Except Failure (Option Nat) :=
  (nameOf key).map fun x => x.bind (f.find? i)

/-- Whether a frame from `i` outwards binds the key; nothing but a symbol is ever bound. -/
def contains (f : Forest) (i : Nat) (key : Datum) : Bool :=
  match key with
  | .symbol x => (f.find? i x).isSome
  | _ => false

def defineDatum (f : Forest) (i : Nat) (key : Datum) (value : Number) :
    Except Failure Unit × Forest :=
  match key with
  | .symbol x => (.ok (), f.define i x value)
  | _ => (.error (.fault (.malformed (.undefinable key))), f)

end Forest

end ParenCalc
