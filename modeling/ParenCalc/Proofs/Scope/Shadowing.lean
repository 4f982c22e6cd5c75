import ParenCalc.Scope.Forest
/-!
# What a frame shows of the frames around it

The frames around a frame are told by the links that were made when the frames were made.  Looking
for a symbol goes outwards along these links to the nearest frame that binds it.  A definition
changes the bindings of its own frame alone, so it is seen from exactly those frames that have
nothing nearer to show.
-/
set_option autoImplicit false

namespace ParenCalc.Forest

/-- A forest made from nothing: roots, frames inside frames that are there, and definitions of
whatever is given as a name. -/
inductive Grown : Forest → Prop
  | empty : Grown .empty
  | root (f : Forest) (grown : Grown f) : Grown f.addRoot
  | child (f : Forest) (outer : Nat) (grown : Grown f) (there : outer < f.size) :
      Grown (f.addChild outer)
  | define (f : Forest) (i : Nat) (key : Datum) (value : Number) (grown : Grown f)
      (there : i < f.size) : Grown (f.defineDatum i key value).2

/-- The record of the frame with a number: the oldest frame has the number zero. -/
def node? (f : Forest) (i : Nat) : Option Node := f.nodes.reverse[i]?

def outer? (f : Forest) (i : Nat) : Option Nat := (f.node? i).bind Node.outer

/-- The bindings of a frame itself. -/
def frame? (f : Forest) (i : Nat) : Option Frame := (f.scope? i).map Scope.frame

/-- What a frame itself binds a symbol to. -/
def value? (f : Forest) (i : Nat) (x : Symbol) : Option Number :=
  (f.frame? i).bind fun frame => frame.get? x

/-- Going outwards from the frame `g`, the frame `k` is met after the frames `nearer`. -/
inductive Outwards (f : Forest) : Nat → List Nat → Nat → Prop
  | here (g : Nat) (there : g < f.size) : Outwards f g [] g
  | around (g outer k : Nat) (nearer : List Nat) (inside : f.outer? g = some outer)
      (rest : Outwards f outer nearer k) : Outwards f g (g :: nearer) k

/-- The frame `k` is `g` or around it, and no frame nearer to `g` binds the symbol. -/
def Unshadowed (f : Forest) (g : Nat) (x : Symbol) (k : Nat) : Prop :=
  ∃ nearer, f.Outwards g nearer k ∧ ∀ j ∈ nearer, f.value? j x = none

/-- The frame `k` is the nearest one from `g` outwards that binds the symbol. -/
def Nearest (f : Forest) (g : Nat) (x : Symbol) (k : Nat) : Prop :=
  f.Unshadowed g x k ∧ (f.value? k x).isSome = true

/-- Every frame lies inside older frames only. -/
def Founded (f : Forest) : Prop := ∀ i j, f.outer? i = some j → j < i

/-! ## Records and chains -/

theorem node?_cons (node : Node) (older : List Node) (i : Nat) :
    node? ⟨node :: older⟩ i = if i = older.length then some node else node? ⟨older⟩ i := by
  simp only [node?, List.reverse_cons]
  by_cases newest : i = older.length
  · simp [newest]
  · rcases Nat.lt_or_gt_of_ne newest with below | above
    · rw [if_neg newest, List.getElem?_append_left (by simpa using below)]
    · rw [if_neg newest, List.getElem?_eq_none (by simpa using Nat.succ_le_of_lt above),
        List.getElem?_eq_none (by simpa using Nat.le_of_lt above)]

theorem lt_size_of_node? (f : Forest) (i : Nat) (node : Node) (there : f.node? i = some node) :
    i < f.size := by
  have bound := (List.getElem?_eq_some_iff.mp there).1
  simpa [size] using bound

theorem lt_size_of_outer? (f : Forest) (i j : Nat) (inside : f.outer? i = some j) :
    i < f.size := by
  obtain ⟨node, there, -⟩ := Option.bind_eq_some_iff.mp inside
  exact f.lt_size_of_node? i node there

theorem founded_of_cons (node : Node) (older : List Node) (founded : Founded ⟨node :: older⟩) :
    Founded ⟨older⟩ := by
  intro i j inside
  have bound : i < older.length := lt_size_of_outer? ⟨older⟩ i j inside
  apply founded i j
  rwa [outer?, node?_cons, if_neg (Nat.ne_of_lt bound)]

theorem chain_cons (node : Node) (older : List Node) (i : Nat) (below : i < older.length) :
    chain ⟨node :: older⟩ i = chain ⟨older⟩ i := by
  simp only [chain, chainIn]
  rw [if_neg (Nat.ne_of_lt below)]

/-- The chain of a frame is the frame and the chain of the frame around it. -/
theorem chain_of_founded (f : Forest) (founded : f.Founded) (i : Nat) :
    f.chain i =
      match f.node? i with
      | some node => (i, node.frame) :: (node.outer.map f.chain).getD []
      | none => [] := by
  obtain ⟨nodes⟩ := f
  induction nodes with
  | nil => simp [chain, chainIn, node?]
  | cons node older ih =>
      by_cases newest : i = older.length
      · have whole : node? ⟨node :: older⟩ i = some node := by rw [node?_cons, if_pos newest]
        simp only [whole]
        simp only [chain, chainIn]
        rw [if_pos newest]
        cases outer : node.outer with
        | none => rfl
        | some j =>
            have below : j < i := founded i j (by rw [outer?, whole]; exact outer)
            exact congrArg ((i, node.frame) :: ·)
              (chain_cons node older j (newest ▸ below)).symm
      · have inner := ih (founded_of_cons node older founded)
        rw [node?_cons, if_neg newest]
        have unfolded : chain ⟨node :: older⟩ i = chain ⟨older⟩ i := by
          simp only [chain, chainIn]
          rw [if_neg newest]
        rw [unfolded, inner]
        cases found : node? ⟨older⟩ i with
        | none => rfl
        | some inside =>
            have bound : i < older.length := lt_size_of_node? ⟨older⟩ i inside found
            cases outer : inside.outer with
            | none => simp [outer]
            | some j =>
                have below : j < i := founded i j (by
                  rw [outer?, node?_cons, if_neg newest, found]
                  exact outer)
                simp only [outer, Option.map_some, Option.getD_some]
                rw [chain_cons node older j (by omega)]

theorem frame?_of_founded (f : Forest) (founded : f.Founded) (i : Nat) :
    f.frame? i = (f.node? i).map Node.frame := by
  rw [frame?, scope?, f.chain_of_founded founded i]
  cases f.node? i <;> rfl

/-! ## Looking outwards -/

theorem contains_eq_isSome (frame : Frame) (x : Symbol) :
    frame.contains x = (frame.get? x).isSome := by
  rw [Bool.eq_iff_iff, OrderedMap.contains_iff_mem_keys, OrderedMap.mem_keys_iff,
    Option.isSome_iff_exists]

theorem find?_of_founded (f : Forest) (founded : f.Founded) (g : Nat) (x : Symbol) :
    f.find? g x =
      if (f.value? g x).isSome then some g else (f.outer? g).bind fun outer => f.find? outer x := by
  rw [find?, f.chain_of_founded founded g, value?, f.frame?_of_founded founded g, outer?]
  cases f.node? g with
  | none => rfl
  | some node =>
      simp only [Option.map_some, Option.bind_some, List.find?_cons, contains_eq_isSome]
      cases (OrderedMap.get? node.frame x).isSome with
      | true => rfl
      | false =>
          cases node.outer with
          | none => rfl
          | some outer => simp [find?, contains_eq_isSome]

theorem lookup?_of_founded (f : Forest) (founded : f.Founded) (g : Nat) (x : Symbol) :
    f.lookup? g x = (f.value? g x).or ((f.outer? g).bind fun outer => f.lookup? outer x) := by
  rw [lookup?, f.chain_of_founded founded g, value?, f.frame?_of_founded founded g, outer?]
  cases f.node? g with
  | none => rfl
  | some node =>
      simp only [Option.map_some, Option.bind_some, List.map_cons, Scope.lookupIn?]
      cases OrderedMap.get? node.frame x with
      | some value => rfl
      | none =>
          cases node.outer with
          | none => rfl
          | some outer => rfl

theorem find?_eq_some_iff (f : Forest) (founded : f.Founded) (g k : Nat) (x : Symbol) :
    f.find? g x = some k ↔ f.Nearest g x k := by
  induction g using Nat.strongRecOn with
  | ind g ih =>
      rw [f.find?_of_founded founded g x]
      constructor
      · intro found
        split at found
        · rename_i binds
          rw [← Option.some.inj found]
          obtain ⟨value, bound⟩ := Option.isSome_iff_exists.mp binds
          obtain ⟨frame, listed, -⟩ := Option.bind_eq_some_iff.mp bound
          rw [f.frame?_of_founded founded] at listed
          obtain ⟨node, there, -⟩ := Option.map_eq_some_iff.mp listed
          exact ⟨⟨[], .here g (f.lt_size_of_node? g node there), by simp⟩, binds⟩
        · rename_i binds
          obtain ⟨outer, inside, further⟩ := Option.bind_eq_some_iff.mp found
          obtain ⟨⟨nearer, path, clear⟩, bound⟩ := (ih outer (founded g outer inside)).mp further
          refine ⟨⟨g :: nearer, .around g outer k nearer inside path, ?_⟩, bound⟩
          intro j member
          rcases List.mem_cons.mp member with same | later
          · rw [same]
            simpa using binds
          · exact clear j later
      · rintro ⟨⟨nearer, path, clear⟩, bound⟩
        cases path with
        | here _ there => rw [if_pos bound]
        | around _ outer _ later inside rest =>
            have free : f.value? g x = none := clear g List.mem_cons_self
            have further := (ih outer (founded g outer inside)).mpr
              ⟨⟨later, rest, fun j member => clear j (List.mem_cons_of_mem g member)⟩, bound⟩
            simp [free, inside, further]

/-- The value of a symbol is the one that the frame found for it binds. -/
theorem lookup?_eq_bind (f : Forest) (founded : f.Founded) (g : Nat) (x : Symbol) :
    f.lookup? g x = (f.find? g x).bind fun k => f.value? k x := by
  induction g using Nat.strongRecOn with
  | ind g ih =>
      rw [f.lookup?_of_founded founded g x, f.find?_of_founded founded g x]
      cases bound : f.value? g x with
      | some value => simp [bound]
      | none =>
          cases inside : f.outer? g with
          | none => rfl
          | some outer => exact ih outer (founded g outer inside)

/-! ## Definitions -/

theorem length_replaceIn (i : Nat) (frame : Frame) (nodes : List Node) :
    (replaceIn i frame nodes).length = nodes.length := by
  induction nodes with
  | nil => rfl
  | cons node older ih =>
      simp only [replaceIn]
      split
      · rfl
      · simp only [List.length_cons, ih]

theorem node?_replace (f : Forest) (i k : Nat) (frame : Frame) :
    (f.replace i frame).node? k =
      (f.node? k).map fun node => if k = i then { node with frame := frame } else node := by
  obtain ⟨nodes⟩ := f
  induction nodes with
  | nil => simp [replace, replaceIn, node?]
  | cons node older ih =>
      simp only [replace, replaceIn] at ih ⊢
      split
      · rename_i newest
        rw [node?_cons, node?_cons]
        by_cases same : k = older.length
        · simp [same, newest]
        · have other : ¬ k = i := fun hit => same (hit.trans newest)
          simp [same, other]
      · rename_i notNewest
        rw [node?_cons, node?_cons, length_replaceIn, ih]
        by_cases same : k = older.length
        · have other : ¬ k = i := fun hit => notNewest (hit ▸ same)
          simp [← same, other]
        · simp [same]

theorem size_define (f : Forest) (i : Nat) (n : Symbol) (value : Number) :
    (f.define i n value).size = f.size := by
  unfold define
  split
  · exact length_replaceIn i _ f.nodes
  · rfl

section Define

variable (f : Forest) (founded : f.Founded) (i : Nat) (n : Symbol) (value : Number)

include founded

/-- A definition rewrites the bindings in one record. -/
theorem node?_define (k : Nat) :
    (f.define i n value).node? k =
      (f.node? k).map fun node =>
        if k = i then { node with frame := node.frame.insert n value } else node := by
  have found := f.frame?_of_founded founded i
  rw [frame?] at found
  unfold define
  cases inside : f.scope? i with
  | none =>
      rw [inside] at found
      cases there : f.node? k with
      | none => rfl
      | some node =>
          have other : ¬ k = i := by
            rintro rfl
            simp [there] at found
          simp [other]
  | some s =>
      rw [inside] at found
      dsimp only
      rw [node?_replace]
      cases there : f.node? k with
      | none => rfl
      | some node =>
          by_cases same : k = i
          · subst same
            have frame : s.frame = node.frame := by simpa [there] using found
            simp [frame]
          · simp [same]

theorem outer?_define (k : Nat) : (f.define i n value).outer? k = f.outer? k := by
  rw [outer?, node?_define f founded, outer?]
  cases f.node? k with
  | none => rfl
  | some node =>
      simp only [Option.map_some, Option.bind_some]
      split <;> rfl

theorem founded_define : (f.define i n value).Founded := by
  intro k j inside
  rw [outer?_define f founded] at inside
  exact founded k j inside

theorem frame?_define (k : Nat) :
    (f.define i n value).frame? k =
      (f.frame? k).map fun frame => if k = i then frame.insert n value else frame := by
  rw [frame?_of_founded _ (founded_define f founded i n value), node?_define f founded,
    frame?_of_founded f founded]
  cases f.node? k with
  | none => rfl
  | some node =>
      simp only [Option.map_some]
      split <;> rfl

theorem value?_define_of_other (k : Nat) (m : Symbol) (other : ¬ (m = n ∧ k = i)) :
    (f.define i n value).value? k m = f.value? k m := by
  rw [value?, value?, frame?_define f founded]
  cases f.frame? k with
  | none => rfl
  | some frame =>
      by_cases own : k = i
      · have different : ¬ n = m := fun same => other ⟨same.symm, own⟩
        simp [own, different]
      · simp [own]

theorem value?_define_self (there : i < f.size) :
    (f.define i n value).value? i n = some value := by
  have bound : i < f.nodes.reverse.length := by simpa [size] using there
  have listed : f.frame? i = some (f.nodes.reverse[i]).frame := by
    rw [frame?_of_founded f founded, node?, List.getElem?_eq_getElem bound, Option.map_some]
  simp [value?, frame?_define f founded, listed]

theorem outwards_define_iff (g k : Nat) (nearer : List Nat) :
    (f.define i n value).Outwards g nearer k ↔ f.Outwards g nearer k := by
  constructor
  · intro path
    induction path with
    | here g there => exact .here g (f.size_define i n value ▸ there)
    | around g outer k nearer inside rest ih =>
        rw [outer?_define f founded] at inside
        exact .around g outer k nearer inside ih
  · intro path
    induction path with
    | here g there => exact .here g ((f.size_define i n value).symm ▸ there)
    | around g outer k nearer inside rest ih =>
        rw [← outer?_define f founded i n value] at inside
        exact .around g outer k nearer inside ih

end Define

theorem founded_of_grown (f : Forest) (grown : f.Grown) : f.Founded := by
  induction grown with
  | empty =>
      intro i j inside
      simp [outer?, node?, empty] at inside
  | root f _ ih =>
      intro i j inside
      rw [addRoot, outer?, node?_cons] at inside
      split at inside
      · simp at inside
      · exact ih i j inside
  | child f outer _ there ih =>
      intro i j inside
      rw [addChild, outer?, node?_cons] at inside
      split at inside
      · rename_i newest
        have same : outer = j := by simpa using inside
        exact same ▸ newest ▸ there
      · exact ih i j inside
  | define f i key value _ _ ih =>
      cases key with
      | symbol x => exact founded_define f ih i x value
      | number _ | list _ | foreign _ => exact ih

/-! ## Where a definition is seen -/

/-- A frame that is met before another one is met after fewer frames. -/
theorem outwards_of_mem (f : Forest) (g k j : Nat) (nearer : List Nat)
    (path : f.Outwards g nearer k) (member : j ∈ nearer) :
    ∃ before, f.Outwards g before j ∧ ∀ other ∈ before, other ∈ nearer := by
  induction path with
  | here g there => simp at member
  | around g outer k nearer inside rest ih =>
      rcases List.mem_cons.mp member with same | later
      · subst same
        exact ⟨[], .here j (f.lt_size_of_outer? j outer inside), by simp⟩
      · obtain ⟨before, shorter, within⟩ := ih later
        refine ⟨g :: before, .around g outer j before inside shorter, ?_⟩
        intro other among
        rcases List.mem_cons.mp among with first | deeper
        · exact first ▸ List.mem_cons_self
        · exact List.mem_cons_of_mem g (within other deeper)

theorem lt_size_of_outwards (f : Forest) (g k : Nat) (nearer : List Nat)
    (path : f.Outwards g nearer k) : k < f.size := by
  induction path with
  | here g there => exact there
  | around g outer k nearer inside rest ih => exact ih

section Seen

variable (f : Forest) (founded : f.Founded) (i : Nat) (n : Symbol) (value : Number)

include founded

theorem lt_of_mem_outwards (g k j : Nat) (nearer : List Nat) (path : f.Outwards g nearer k)
    (member : j ∈ nearer) : k < j := by
  have older (g k : Nat) (nearer : List Nat) (path : f.Outwards g nearer k) : k ≤ g := by
    induction path with
    | here g there => exact Nat.le_refl g
    | around g outer k nearer inside rest ih =>
        exact Nat.le_trans ih (Nat.le_of_lt (founded g outer inside))
  induction path with
  | here g there => simp at member
  | around g outer k nearer inside rest ih =>
      rcases List.mem_cons.mp member with same | later
      · rw [same]
        exact Nat.lt_of_le_of_lt (older outer k nearer rest) (founded g outer inside)
      · exact ih later

theorem lookup?_define_of_unshadowed (g : Nat) (seen : f.Unshadowed g n i) :
    (f.define i n value).lookup? g n = some value := by
  obtain ⟨nearer, path, clear⟩ := seen
  have foundedAfter := founded_define f founded i n value
  have own := value?_define_self f founded i n value (f.lt_size_of_outwards g i nearer path)
  have found : (f.define i n value).find? g n = some i := by
    rw [find?_eq_some_iff _ foundedAfter]
    refine ⟨⟨nearer, (outwards_define_iff f founded i n value g i nearer).mpr path, ?_⟩, ?_⟩
    · intro j member
      have above := lt_of_mem_outwards f founded g i j nearer path member
      rw [value?_define_of_other f founded i n value j n fun hit => Nat.ne_of_gt above hit.2]
      exact clear j member
    · rw [own]
      rfl
  rw [lookup?_eq_bind _ foundedAfter, found, Option.bind_some, own]

/-- Where a definition is not seen, the nearest frame that binds a symbol stays the nearest. -/
theorem nearest_define_iff (g k : Nat) (m : Symbol) (hidden : ¬ (m = n ∧ f.Unshadowed g n i)) :
    (f.define i n value).Nearest g m k ↔ f.Nearest g m k := by
  constructor
  · rintro ⟨⟨nearer, path, clear⟩, bound⟩
    rw [outwards_define_iff f founded i n value] at path
    have clearBefore : ∀ j ∈ nearer, f.value? j m = none := by
      intro j member
      have free := clear j member
      by_cases hit : m = n ∧ j = i
      · obtain ⟨rfl, rfl⟩ := hit
        obtain ⟨before, shorter, -⟩ := f.outwards_of_mem g k j nearer path member
        have there := f.lt_size_of_outwards g j before shorter
        rw [value?_define_self f founded j m value there] at free
        simp at free
      · rwa [value?_define_of_other f founded i n value j m hit] at free
    have other : ¬ (m = n ∧ k = i) := by
      rintro ⟨rfl, rfl⟩
      exact hidden ⟨rfl, nearer, path, clearBefore⟩
    rw [value?_define_of_other f founded i n value k m other] at bound
    exact ⟨⟨nearer, path, clearBefore⟩, bound⟩
  · rintro ⟨⟨nearer, path, clear⟩, bound⟩
    have other : ¬ (m = n ∧ k = i) := by
      rintro ⟨rfl, rfl⟩
      exact hidden ⟨rfl, nearer, path, clear⟩
    refine ⟨⟨nearer, (outwards_define_iff f founded i n value g k nearer).mpr path, ?_⟩, ?_⟩
    · intro j member
      have notThere : ¬ (m = n ∧ j = i) := by
        rintro ⟨rfl, rfl⟩
        obtain ⟨before, shorter, within⟩ := f.outwards_of_mem g k j nearer path member
        exact hidden ⟨rfl, before, shorter, fun other among => clear other (within other among)⟩
      rw [value?_define_of_other f founded i n value j m notThere]
      exact clear j member
    · rwa [value?_define_of_other f founded i n value k m other]

theorem lookup?_define_of_hidden (g : Nat) (m : Symbol)
    (hidden : ¬ (m = n ∧ f.Unshadowed g n i)) :
    (f.define i n value).lookup? g m = f.lookup? g m := by
  have foundedAfter := founded_define f founded i n value
  have sameFound : (f.define i n value).find? g m = f.find? g m := by
    apply Option.ext
    intro k
    rw [find?_eq_some_iff _ foundedAfter, find?_eq_some_iff f founded,
      nearest_define_iff f founded i n value g k m hidden]
  rw [lookup?_eq_bind _ foundedAfter, lookup?_eq_bind f founded, sameFound]
  cases found : f.find? g m with
  | none => rfl
  | some k =>
      have nearest := (f.find?_eq_some_iff founded g k m).mp found
      have other : ¬ (m = n ∧ k = i) := by
        rintro ⟨rfl, rfl⟩
        exact hidden ⟨rfl, nearest.1⟩
      exact value?_define_of_other f founded i n value k m other

end Seen

/-! ## The three ways to ask -/

theorem lookup_symbol (f : Forest) (g : Nat) (x : Symbol) :
    f.lookup g (.symbol x) =
      match f.lookup? g x with
      | some value => .ok value
      | none => .error (.fault (.undefined x.name)) := rfl

theorem lookup_eq_ok_iff (f : Forest) (g : Nat) (x : Symbol) (value : Number) :
    f.lookup g (.symbol x) = .ok value ↔ f.lookup? g x = some value := by
  rw [lookup_symbol]
  cases f.lookup? g x <;> simp

/-- Finding a symbol, asking whether it is there and looking it up agree: what is found is the
nearest frame that binds it, it is there just when it can be looked up, and its value is the one
that the frame binds. -/
structure Consistent (f : Forest) : Prop where
  found : ∀ g x k, f.find g (.symbol x) = .ok (some k) ↔ f.Nearest g x k
  unfound : ∀ g x, f.find g (.symbol x) = .ok none ↔ ∀ k, ¬ f.Nearest g x k
  contained : ∀ g x, f.contains g (.symbol x) = true ↔ ∃ value, f.lookup g (.symbol x) = .ok value
  bound : ∀ g x value, f.lookup g (.symbol x) = .ok value ↔
    ∃ k, f.find g (.symbol x) = .ok (some k) ∧ f.value? k x = some value
  unbound : ∀ g x, f.find g (.symbol x) = .ok none ↔
    f.lookup g (.symbol x) = .error (.fault (.undefined x.name))

theorem consistent_of_founded (f : Forest) (founded : f.Founded) : f.Consistent := by
  have find (g : Nat) (x : Symbol) : f.find g (.symbol x) = .ok (f.find? g x) := rfl
  have found (g : Nat) (x : Symbol) (k : Nat) (here : f.find? g x = some k) :
      ∃ value, f.value? k x = some value :=
    Option.isSome_iff_exists.mp ((f.find?_eq_some_iff founded g k x).mp here).2
  refine ⟨?_, ?_, ?_, ?_, ?_⟩
  · intro g x k
    rw [find, ← f.find?_eq_some_iff founded]
    simp
  · intro g x
    rw [find]
    simp only [← f.find?_eq_some_iff founded, Except.ok.injEq, Option.eq_none_iff_forall_ne_some]
  · intro g x
    simp only [lookup_eq_ok_iff, lookup?_eq_bind f founded]
    show (f.find? g x).isSome = true ↔ _
    cases here : f.find? g x with
    | none => simp
    | some k => simpa using found g x k here
  · intro g x value
    rw [find, lookup_eq_ok_iff, lookup?_eq_bind f founded]
    simp [Option.bind_eq_some_iff]
  · intro g x
    rw [find, lookup_symbol, lookup?_eq_bind f founded]
    cases here : f.find? g x with
    | none => simp
    | some k =>
        obtain ⟨value, bound⟩ := found g x k here
        simp [bound]

end ParenCalc.Forest

namespace ParenCalc

/-- In a forest made from nothing, after a definition in one frame: looking the symbol up gives the
new value from every frame that has the defining frame on its way outwards and no nearer frame that
binds the symbol, and every other look-up ends as it did before.  Finding, containing and looking up
agree before and after.  The bindings of every other frame are what they were, and those of the
frame itself have the definition added. -/
theorem definition_is_seen_where_unshadowed (f : Forest) (grown : f.Grown) (i : Nat) (n : Symbol)
    (value : Number) :
    let after := f.define i n value
    (∀ g m, (m = n ∧ f.Unshadowed g n i → after.lookup g (.symbol m) = .ok value) ∧
      (¬ (m = n ∧ f.Unshadowed g n i) →
        after.lookup g (.symbol m) = f.lookup g (.symbol m))) ∧
    f.Consistent ∧ after.Consistent ∧
    (∀ k, k ≠ i → after.frame? k = f.frame? k) ∧
    after.frame? i = (f.frame? i).map fun frame => frame.insert n value := by
  intro after
  have founded := f.founded_of_grown grown
  refine ⟨?_, f.consistent_of_founded founded,
    after.consistent_of_founded (f.founded_define founded i n value), ?_, ?_⟩
  · intro g m
    refine ⟨?_, ?_⟩
    · rintro ⟨rfl, seen⟩
      rw [Forest.lookup_eq_ok_iff]
      exact f.lookup?_define_of_unshadowed founded i m value g seen
    · intro hidden
      rw [Forest.lookup_symbol, Forest.lookup_symbol,
        f.lookup?_define_of_hidden founded i n value g m hidden]
  · intro k other
    rw [f.frame?_define founded i n value k]
    simp [other]
  · rw [f.frame?_define founded i n value i]
    simp

/-- A definition in the middle of three frames is seen from the innermost one and not from the
outermost one, nor from a frame beside it that shares the outermost one. -/
theorem definition_in_the_middle_is_seen :
    let x : Symbol := ⟨"x", by decide⟩
    let f := (((Forest.empty.addRoot.define 0 x (.int 1)).addChild 0).addChild 1).addChild 0
    let after := f.define 1 x (.int 5)
    f.Grown ∧ after.lookup 2 (.symbol x) = .ok (.int 5) ∧
      after.lookup 3 (.symbol x) = .ok (.int 1) ∧ after.lookup 0 (.symbol x) = .ok (.int 1) := by
  intro x f after
  have grown : f.Grown :=
    .child _ 0 (.child _ 1 (.child _ 0 (.define _ 0 (.symbol x) _ (.root _ .empty) (by decide))
      (by decide))
      (by decide)) (by decide)
  have law := (definition_is_seen_where_unshadowed f grown 1 x (.int 5)).1
  have seen : f.Unshadowed 2 x 1 :=
    ⟨[2], .around 2 1 1 [] (by decide) (.here 1 (by decide)), by decide⟩
  have notFromRoot (nearer : List Nat) : ¬ f.Outwards 0 nearer 1 := by
    intro path
    cases path with
    | around _ outer _ later inside rest =>
        have outermost : f.outer? 0 = none := by decide
        rw [outermost] at inside
        simp at inside
  have notFromSide (nearer : List Nat) : ¬ f.Outwards 3 nearer 1 := by
    intro path
    cases path with
    | around _ outer _ later inside rest =>
        have same : 0 = outer := Option.some.inj ((by decide : some 0 = f.outer? 3).trans inside)
        exact notFromRoot later (same ▸ rest)
  refine ⟨grown, (law 2 x).1 ⟨rfl, seen⟩, ((law 3 x).2 ?_).trans rfl, ((law 0 x).2 ?_).trans rfl⟩
  · rintro ⟨-, nearer, path, -⟩
    exact notFromSide nearer path
  · rintro ⟨-, nearer, path, -⟩
    exact notFromRoot nearer path

end ParenCalc
