import Statechart.Proofs.Engine.Enrolment
import Statechart.Proofs.Engine.Resources

/-!
# Layers that are not looked at

A layer may hold anything as far as those are concerned who do not see it. What is done with
variables that are seen elsewhere comes to the same, and leaves the layer as it is.

- `Memory.replace`, `World.replace` : the same, but for the variables of one layer
- `Extent.lookup_replace`, `Extent.assign_replace` : variables in other layers
- `World.replace_perform`, `World.replace_complete` : actions, and the outputs of invocations
- `World.replace_build`, `World.replace_spawn`      : instances that move in
- `World.replace_launch`                            : and whole collaborations
-/

namespace Statechart

namespace Memory

/-- The same memory, but for one layer. -/
def replace (m : Memory) (k : LayerId) (l : Layer) : Memory := ⟨m.layers.set k l, m.backing⟩

section Layers

variable {m : Memory} {k own : LayerId} {l : Layer}

theorem getElem?_replace (h : own ≠ k) : (m.replace k l).layers[own]? = m.layers[own]? :=
  List.getElem?_set_ne h.symm

theorem get_replace (h : own ≠ k) (name : String) :
    (m.replace k l).get own name = m.get own name := by
  rw [get, getElem?_replace h, get]
  rfl

theorem assign_replace (h : own ≠ k) (name : String) (value : Value) :
    (m.replace k l).assign own name value =
      ((m.assign own name value).1.replace k l, (m.assign own name value).2) := by
  rw [assign, getElem?_replace h, assign]
  cases m.layers[own]? with
  | none => rfl
  | some held =>
      refine Prod.ext ?_ rfl
      exact congrArg (Memory.mk · _) (List.set_comm _ _ h.symm)

theorem create_replace (h : own ≠ k) (name : String) (value : Value) :
    (m.replace k l).create own name value =
      ((m.create own name value).1.replace k l, (m.create own name value).2) := by
  rw [create, getElem?_replace h, create]
  cases m.layers[own]? with
  | none => rfl
  | some held =>
      refine Prod.ext ?_ rfl
      exact congrArg (Memory.mk · _) (List.set_comm _ _ h.symm)

theorem add_replace (h : k < m.layers.length) (fresh : Layer) :
    (m.replace k l).add fresh = ((m.add fresh).1.replace k l, m.layers.length) := by
  simp only [add, replace, List.length_set, List.set_append_left _ _ h]

/-- What a memory holds it holds on when layers are added. -/
theorem held_of_isPrefix {m' : Memory} (hkinds : m.kinds <+: m'.kinds)
    (h : k < m.layers.length) : k < m'.layers.length := by
  have hlength := hkinds.length_le
  rw [kinds, kinds, List.length_map, List.length_map] at hlength
  exact Nat.lt_of_lt_of_le h hlength

/-- A layer in place of itself. -/
theorem replace_self (h : m.layers[k]? = some l) : m.replace k l = m := by
  obtain ⟨hlt, rfl⟩ := List.getElem?_eq_some_iff.1 h
  rw [replace, List.set_getElem_self]

end Layers

end Memory

/-! ## Extents -/

namespace Extent

variable {e : Extent} {k : LayerId} {m : Memory}

theorem resolve_replace (h : k ∉ e.layers) (l : Layer) (name : String) :
    e.resolve (m.replace k l) name = e.resolve m name := by
  have hids : ∀ ids : List LayerId, k ∉ ids →
      resolveIn (m.replace k l) name ids = resolveIn m name ids := by
    intro ids hids
    induction ids with
    | nil => rfl
    | cons id rest ih =>
        obtain ⟨hfirst, hrest⟩ := not_or.1 (mt List.mem_cons.2 hids)
        rw [resolveIn, Memory.get_replace (Ne.symm hfirst), ih hrest, resolveIn]
  exact hids e.downward fun hin => h (List.mem_reverse.1 hin)

theorem lookup_replace (h : k ∉ e.layers) (l : Layer) :
    e.lookup (m.replace k l) = e.lookup m :=
  funext fun name => resolve_replace h l name

theorem assign_replace (h : k ∉ e.layers) (l : Layer) (name : String) (value : Value) :
    e.assign (m.replace k l) name value =
      ((e.assign m name value).1.replace k l, (e.assign m name value).2) := by
  have hids : ∀ (ids : List LayerId) (m : Memory), k ∉ ids →
      assignIn name value (m.replace k l) ids =
        ((assignIn name value m ids).1.replace k l, (assignIn name value m ids).2) := by
    intro ids
    induction ids with
    | nil => exact fun _ _ => rfl
    | cons id rest ih =>
        intro m hids
        obtain ⟨hfirst, hrest⟩ := not_or.1 (mt List.mem_cons.2 hids)
        simp only [assignIn, Memory.assign_replace (Ne.symm hfirst)]
        -- the next layer is tried only if the variable is not in this one
        generalize m.assign id name value = tried
        obtain ⟨m', outcome⟩ := tried
        cases outcome with
        | ok written => rfl
        | error fault =>
            cases fault with
            | notFound _ => exact ih m' hrest
            | _ => rfl
  exact hids e.downward m fun hin => h (List.mem_reverse.1 hin)

theorem ne_of_high? (h : k ∉ e.layers) {id : LayerId} (hhigh : e.high? = some id) : id ≠ k :=
  fun heq => h (heq ▸ List.mem_of_getLast? hhigh)

theorem notMem_extend (h : k ∉ e.layers) {id : LayerId} (hid : id ≠ k) :
    k ∉ (e.extend id).layers := by
  intro hin
  rcases List.mem_append.1 hin with hin | hin
  · exact h hin
  · exact hid (List.mem_singleton.1 hin).symm

theorem put_replace (h : k ∉ e.layers) (l : Layer) (name : String) (value : Value) :
    e.put (m.replace k l) name value =
      ((e.put m name value).1.replace k l, (e.put m name value).2) := by
  unfold put
  cases hhigh : e.high? with
  | none => rfl
  | some id =>
      have hne := ne_of_high? h hhigh
      simp only [Memory.assign_replace hne]
      generalize m.assign id name value = tried
      obtain ⟨m', outcome⟩ := tried
      cases outcome with
      | ok written => rfl
      | error fault =>
          cases fault with
          | notFound _ => exact Memory.create_replace hne name value
          | _ => rfl

theorem create_replace (h : k ∉ e.layers) (l : Layer) (name : String) (value : Value)
    (persistent : Bool) :
    e.create (m.replace k l) name value persistent =
      ((e.create m name value persistent).1.replace k l,
        (e.create m name value persistent).2) := by
  unfold create
  cases hplace : (if persistent = true then e.low? else e.high?) with
  | none => rfl
  | some id =>
      -- persistent variables go to the lowest layer, all others to the highest
      have hin : id ∈ e.layers := by
        cases persistent with
        | true => exact List.mem_of_head? hplace
        | false => exact List.mem_of_getLast? hplace
      have hne : id ≠ k := fun heq => h (heq ▸ hin)
      exact Memory.create_replace hne name value

end Extent

/-! ## Worlds -/

namespace World

variable {w v : World} {k : LayerId} {l : Layer} {n : Nat}

/-- The same world, but for the variables of one layer. -/
def replace (w : World) (k : LayerId) (l : Layer) : World :=
  { w with memory := w.memory.replace k l }

theorem replace_self (h : w.memory.layers[k]? = some l) : w.replace k l = w := by
  rw [replace, Memory.replace_self h]

theorem replace_foldl {α : Type} {f : World → α → World}
    (h : ∀ w a, f (w.replace k l) a = (f w a).replace k l) (w : World) (as : List α) :
    as.foldl f (w.replace k l) = (as.foldl f w).replace k l := by
  induction as generalizing w with
  | nil => rfl
  | cons a rest ih => rw [List.foldl_cons, h, ih, List.foldl_cons]

/-! ### Events and timers -/

/-- What looks at no variables at all does not look at those of the layer. -/
theorem replace_of_ignoresResources {α : Type} {f : World → World × α}
    (h : IgnoresResources f) (w : World) (k : LayerId) (l : Layer) :
    f (w.replace k l) = ((f w).1.replace k l, (f w).2) := by
  let swap (m : Resources) : Resources := { m with memory := m.memory.replace k l }
  have hresources : (f w).1.withResources (swap w.resources) =
      (f w).1.withResources (swap (f w).1.resources) := by
    rw [h.resources_eq w]
  calc
    f (w.replace k l) = ((f w).1.withResources (swap w.resources), (f w).2) :=
        h w (swap w.resources)
    _ = ((f w).1.replace k l, (f w).2) := congrArg (·, (f w).2) hresources

theorem replace_wake (w : World) (k : LayerId) (l : Layer) (n : Nat) :
    (w.replace k l).wake n = (w.wake n).replace k l :=
  congrArg Prod.fst (replace_of_ignoresResources (f := fun w => (w.wake n, ()))
    (fun w m => congrArg (·, ()) (withResources_wake w m n)) w k l)

theorem replace_offer (w : World) (k : LayerId) (l : Layer) (p : Party) (e : Event) :
    (w.replace k l).offer p e = ((w.offer p e).1.replace k l, (w.offer p e).2) :=
  replace_of_ignoresResources (ignoresResources_offer p e) w k l

theorem replace_deliver (w : World) (k : LayerId) (l : Layer) (owner : Party) (e : Event) :
    (w.replace k l).deliver owner e =
      ((w.deliver owner e).1.replace k l, (w.deliver owner e).2) :=
  replace_of_ignoresResources (ignoresResources_deliver owner e) w k l

theorem replace_startTimer (w : World) (k : LayerId) (l : Layer) (site : Site) (name : String)
    (period : Nat) (action : Action) :
    (w.replace k l).startTimer site name period action =
      ((w.startTimer site name period action).1.replace k l,
        (w.startTimer site name period action).2) :=
  replace_of_ignoresResources (ignoresResources_startTimer site name period action) w k l

theorem replace_stopTimer (w : World) (k : LayerId) (l : Layer) (owner : Party) (name : String) :
    (w.replace k l).stopTimer owner name =
      ((w.stopTimer owner name).1.replace k l, (w.stopTimer owner name).2) :=
  replace_of_ignoresResources (ignoresResources_stopTimer owner name) w k l

theorem replace_startTimers {site : Site} (h : k ∉ site.extent.layers) (w : World) (l : Layer)
    (timeouts : List Timeout) :
    startTimers site (w.replace k l) timeouts =
      ((startTimers site w timeouts).1.replace k l, (startTimers site w timeouts).2) := by
  induction timeouts generalizing w with
  | nil => rfl
  | cons timeout rest ih =>
      have hfind : site.extent.lookup (w.replace k l).memory = site.extent.lookup w.memory :=
        Extent.lookup_replace h l
      simp only [startTimers, hfind]
      split
      · rfl
      · rename_i period _
        rw [replace_startTimer]
        generalize w.startTimer site timeout.name period (.raise timeout.event) = started
        obtain ⟨v, outcome⟩ := started
        cases outcome with
        | ok done => exact ih v
        | error fault => rfl

/-! ### Invocations -/

theorem replace_selectService (w : World) (k : LayerId) (l : Layer) (type : String)
    (localOnly : Bool) :
    (w.replace k l).selectService type localOnly =
      ((w.selectService type localOnly).1.replace k l, (w.selectService type localOnly).2) := by
  have hsame : (w.replace k l).policy.choose? (w.replace k l).services
      ((w.replace k l).choices.draws (w.replace k l).drawn) type localOnly =
        w.policy.choose? w.services (w.choices.draws w.drawn) type localOnly := rfl
  unfold selectService
  rw [hsame]
  cases w.policy.choose? w.services (w.choices.draws w.drawn) type localOnly <;> rfl

theorem replace_assignOutput {site : Site} (h : k ∉ site.extent.layers) (w : World) (l : Layer)
    (type : String) (response : List (String × Value)) (name : String) :
    assignOutput site type response (w.replace k l) name =
      (assignOutput site type response w name).replace k l := by
  unfold assignOutput
  split
  · rename_i value _
    have hassign : site.extent.assign (w.replace k l).memory name value =
        ((site.extent.assign w.memory name value).1.replace k l,
          (site.extent.assign w.memory name value).2) := Extent.assign_replace h l name value
    rw [hassign]
    generalize site.extent.assign w.memory name value = written
    obtain ⟨memory, outcome⟩ := written
    cases outcome <;> rfl
  · rfl

theorem replace_complete {site : Site} (h : k ∉ site.extent.layers) (w : World) (l : Layer)
    (call : Invocation) (response : List (String × Value)) :
    (w.replace k l).complete site call response = (w.complete site call response).replace k l := by
  unfold complete
  simp only
  rw [replace_foldl fun u name => replace_assignOutput h u l call.service response name,
    replace_foldl fun u t =>
      congrArg Prod.fst (replace_offer u k l site.owner (t.toEvent response))]

/-! ### Actions -/

theorem replace_perform {site : Site} (h : k ∉ site.extent.layers) (w : World) (l : Layer)
    (action : Action) :
    (w.replace k l).perform site action =
      ((w.perform site action).1.replace k l, (w.perform site action).2) := by
  have hfind : site.extent.lookup (w.replace k l).memory = site.extent.lookup w.memory :=
    Extent.lookup_replace h l
  -- whatever is evaluated is so over the variables of the site, and only they are written
  cases action with
  | assign declared =>
      simp only [perform, hfind]
      split
      · rfl
      · rename_i name value _
        have hassign : site.extent.assign (w.replace k l).memory name value =
            ((site.extent.assign w.memory name value).1.replace k l,
              (site.extent.assign w.memory name value).2) := Extent.assign_replace h l name value
        rw [hassign]
        generalize site.extent.assign w.memory name value = written
        obtain ⟨memory, outcome⟩ := written
        cases outcome <;> rfl
  | create declared persistent =>
      simp only [perform, hfind]
      split
      · rfl
      · rename_i name value _
        have hcreate : site.extent.create (w.replace k l).memory name value persistent =
            ((site.extent.create w.memory name value persistent).1.replace k l,
              (site.extent.create w.memory name value persistent).2) :=
          Extent.create_replace h l name value persistent
        rw [hcreate]
        generalize site.extent.create w.memory name value persistent = written
        obtain ⟨memory, outcome⟩ := written
        cases outcome <;> rfl
  | invoke call =>
      simp only [perform, hfind, replace_selectService]
      generalize w.selectService call.service call.isLocal = chosen
      obtain ⟨v, outcome⟩ := chosen
      cases outcome with
      | error fault => rfl
      | ok service =>
          simp only
          split <;> rfl
  | choose value cases =>
      simp only [perform, hfind]
      split <;> rfl
  | raise template =>
      simp only [perform, hfind]
      split
      · rfl
      · rename_i event _
        rw [replace_deliver]
        generalize w.deliver site.owner event = delivered
        obtain ⟨v, outcome⟩ := delivered
        cases outcome <;> rfl
  | timeout timer => rfl
  | resetTimeout name =>
      simp only [perform, replace_stopTimer]
      generalize w.stopTimer site.owner name = stopped
      obtain ⟨v, outcome⟩ := stopped
      cases outcome <;> rfl

theorem replace_execute {site : Site} (h : k ∉ site.extent.layers) (w : World) (l : Layer)
    (action : Action) :
    worldActor.execute (w.replace k l) site action =
      ((worldActor.execute w site action).1.replace k l,
        (worldActor.execute w site action).2) := by
  have hperform : worldActor.perform (w.replace k l) site action =
      ((worldActor.perform w site action).1.replace k l,
        (worldActor.perform w site action).2) := replace_perform h w l action
  unfold Actor.execute
  rw [hperform]
  generalize worldActor.perform w site action = performed
  obtain ⟨v, outcome⟩ := performed
  cases outcome <;> rfl

/-! ### Declarations -/

theorem replace_declare {layer : LayerId} {extent : Extent} (hlayer : layer ≠ k)
    (h : k ∉ extent.layers) (m : Memory) (l : Layer) (declared : List Variable) :
    declare layer extent (m.replace k l) declared =
      (declare layer extent m declared).map (·.replace k l) := by
  induction declared generalizing m with
  | nil => rfl
  | cons v rest ih =>
      simp only [declare, Extent.lookup_replace h]
      split
      · rfl
      · rename_i name value _
        simp only [Memory.create_replace hlayer]
        generalize m.create layer name value = created
        obtain ⟨m', outcome⟩ := created
        cases outcome with
        | ok written => exact ih m'
        | error fault => rfl

/-- The layers of states are above those that there were. -/
theorem replace_declareStates {extent : Extent} (h : k ∉ extent.layers) {m : Memory}
    (hheld : k < m.layers.length) (l : Layer) (states : List State) :
    declareStates extent (m.replace k l) states =
      (declareStates extent m states).map fun built => (built.1.replace k l, built.2) := by
  induction states generalizing m with
  | nil => rfl
  | cons state rest ih =>
      have hnew : m.layers.length ≠ k := Nat.ne_of_gt hheld
      have hown := replace_declare hnew (Extent.notMem_extend h hnew) (m.add (.memory .empty)).1 l
        state.locals
      simp only [declareStates, Memory.add_replace hheld, hown]
      have hthere : (m.add (.memory .empty)).2 = m.layers.length := rfl
      rw [hthere]
      cases hdeclare : declare m.layers.length (extent.extend m.layers.length)
          (m.add (.memory .empty)).1 state.locals with
      | error fault => rfl
      | ok m' =>
          have hgrown : k < m'.layers.length :=
            Memory.held_of_isPrefix ((Memory.isPrefix_kinds_add m _).trans
              (Memory.isStable_isPrefix_kinds.declare hdeclare)) hheld
          have hrest := ih hgrown
          simp only [Except.map, bind, Except.bind, hrest]
          cases declareStates extent m' rest <;> rfl

/-! ### Instances -/

theorem replace_addInstance {enclosing : Extent} (h : k ∉ enclosing.layers)
    (hheld : k < w.memory.layers.length) (l : Layer) (g : Graph) (parent : Option Nat) :
    (w.replace k l).addInstance g enclosing parent =
      (w.addInstance g enclosing parent).map fun built => (built.1.replace k l, built.2) := by
  have hnew : w.memory.layers.length ≠ k := Nat.ne_of_gt hheld
  have hextent : k ∉ (enclosing.extend w.memory.layers.length).layers :=
    Extent.notMem_extend h hnew
  have hadd := Memory.add_replace (l := l) hheld (.memory .empty)
  have hown := replace_declare hnew hextent (w.memory.add (.memory .empty)).1 l g.locals
  have hthere : (w.memory.add (.memory .empty)).2 = w.memory.layers.length := rfl
  have hmemory : (w.replace k l).memory = w.memory.replace k l := rfl
  unfold addInstance
  simp only [hmemory, hadd, hown, hthere]
  cases hdeclare : declare w.memory.layers.length (enclosing.extend w.memory.layers.length)
      (w.memory.add (.memory .empty)).1 g.locals with
  | error fault => rfl
  | ok m =>
      have hgrown : k < m.layers.length :=
        Memory.held_of_isPrefix ((Memory.isPrefix_kinds_add w.memory _).trans
          (Memory.isStable_isPrefix_kinds.declare hdeclare)) hheld
      simp only [Except.map, bind, Except.bind, replace_declareStates hextent hgrown]
      cases declareStates (enclosing.extend w.memory.layers.length) m g.states <;> rfl

/-- Building adds layers at most. -/
theorem isStable_isPrefix_kinds :
    IsStable (fun _ => True) fun w w' => w.memory.kinds <+: w'.memory.kinds where
  nested _ _ _ _ := trivial
  refl _ := List.prefix_rfl
  trans := List.IsPrefix.trans
  addInstance h _ := Memory.isStable_isPrefix_kinds.addInstance Memory.isPrefix_kinds_add h
  setNested _ _ _ := List.prefix_rfl

/-- An instance sees what is around it and a new layer. -/
theorem extent_addInstance {g : Graph} {enclosing extent : Extent} {parent : Option Nat}
    (h : w.addInstance g enclosing parent = .ok (v, n, extent)) :
    extent = enclosing.extend w.memory.layers.length := by
  unfold addInstance at h
  obtain ⟨_, -, h⟩ := bind_eq_ok_iff.1 h
  obtain ⟨⟨_, _⟩, -, h⟩ := bind_eq_ok_iff.1 h
  cases h
  rfl

mutual

/-- Those who are built do not look at layers outside of the enclosing scope that there were. -/
theorem replace_build {w : World} {enclosing : Extent} (h : k ∉ enclosing.layers)
    (hheld : k < w.memory.layers.length) (l : Layer) (parent : Option Nat) :
    ∀ g : Graph, build (w.replace k l) enclosing parent g =
      (build w enclosing parent g).map fun built => (built.1.replace k l, built.2)
  | ⟨name, isAbstract, locals, nested, states, initial, description⟩ => by
      simp only [build, replace_addInstance h hheld]
      cases hadd : w.addInstance ⟨name, isAbstract, locals, nested, states, initial, description⟩
          enclosing parent with
      | error fault => rfl
      | ok added =>
          obtain ⟨v, n, extent⟩ := added
          obtain rfl := extent_addInstance hadd
          have hwithin : k ∉ (enclosing.extend w.memory.layers.length).layers :=
            Extent.notMem_extend h (Nat.ne_of_gt hheld)
          have hgrown : k < v.memory.layers.length :=
            Memory.held_of_isPrefix (isStable_isPrefix_kinds.addInstance hadd trivial) hheld
          simp only [Except.map, bind, Except.bind,
            replace_buildAll hwithin hgrown l (some n) nested]
          cases buildAll v (enclosing.extend w.memory.layers.length) (some n) nested <;> rfl

theorem replace_buildAll {w : World} {enclosing : Extent} (h : k ∉ enclosing.layers)
    (hheld : k < w.memory.layers.length) (l : Layer) (parent : Option Nat) :
    ∀ gs : List Graph, buildAll (w.replace k l) enclosing parent gs =
      (buildAll w enclosing parent gs).map fun built => (built.1.replace k l, built.2)
  | [] => rfl
  | g :: rest => by
      rw [buildAll, buildAll]
      split
      · exact replace_buildAll h hheld l parent rest
      · rw [replace_build h hheld l parent g]
        cases hbuild : build w enclosing parent g with
        | error fault => rfl
        | ok built =>
            obtain ⟨v, n⟩ := built
            have hgrown : k < v.memory.layers.length :=
              Memory.held_of_isPrefix (isStable_isPrefix_kinds.build hbuild trivial) hheld
            simp only [Except.map, bind, Except.bind, replace_buildAll h hgrown l parent rest]
            cases buildAll v enclosing parent rest <;> rfl

end

/-! ### Launching and spawning -/

theorem replace_register (w : World) (k : LayerId) (l : Layer) (n : Nat) :
    (w.replace k l).register n = (w.register n).replace k l := by
  have hsame : (w.replace k l).instance? n = w.instance? n := rfl
  unfold register
  rw [hsame]
  cases w.instance? n <;> rfl

theorem replace_start (w : World) (k : LayerId) (l : Layer) (ns : List Nat) :
    (w.replace k l).start ns = (w.start ns).replace k l := by
  rw [start, replace_foldl fun u n => replace_register u k l n,
    replace_foldl (f := fun u n => u.enqueue (.turn n)) fun _ _ => rfl, start]

theorem replace_adopt (w : World) (k : LayerId) (l : Layer) (parent : Option Nat) (n : Nat) :
    (w.replace k l).adopt parent n = (w.adopt parent n).replace k l := by
  cases parent <;> rfl

theorem spawn_eq (w : World) (g : Graph) (parent : Option Nat) :
    w.spawn g parent =
      if w.isShutDown then (w, .error .shutDown)
      else match build w (w.enclosing parent) parent g with
        | .error fault => (w, .error fault)
        | .ok (built, n) =>
            ((built.adopt parent n).start (built.builtSince w.instances.length), .ok n) := rfl

theorem replace_spawn {g : Graph} {parent : Option Nat}
    (h : k ∉ (w.enclosing parent).layers) (hheld : k < w.memory.layers.length) (l : Layer) :
    (w.replace k l).spawn g parent =
      ((w.spawn g parent).1.replace k l, (w.spawn g parent).2) := by
  have hshut : (w.replace k l).isShutDown = w.isShutDown := rfl
  have hbuild : build (w.replace k l) ((w.replace k l).enclosing parent) parent g =
      (build w (w.enclosing parent) parent g).map fun built => (built.1.replace k l, built.2) :=
    replace_build h hheld l parent g
  rw [spawn_eq, spawn_eq, hshut, hbuild]
  split
  · rfl
  · cases build w (w.enclosing parent) parent g with
    | error fault => rfl
    | ok built =>
        obtain ⟨v, n⟩ := built
        have hsince : (v.replace k l).builtSince (w.replace k l).instances.length =
          v.builtSince w.instances.length := rfl
        simp only [Except.map, hsince, replace_adopt, replace_start]

theorem replace_establish {root : LayerId} {extent : Extent} (hroot : root ≠ k)
    (h : k ∉ extent.layers) (m : Memory) (l : Layer) (declared : List Variable) :
    establish root extent (m.replace k l) declared =
      ((establish root extent m declared).1.replace k l,
        (establish root extent m declared).2) := by
  induction declared generalizing m with
  | nil => rfl
  | cons v rest ih =>
      simp only [establish, Extent.lookup_replace h]
      split
      · rfl
      · rename_i name value _
        simp only [Memory.create_replace hroot]
        generalize m.create root name value = created
        obtain ⟨m', outcome⟩ := created
        cases outcome with
        | ok written => exact ih m'
        | error fault =>
            -- a variable that is there already is no reason to stop
            cases fault with
            | «exists» _ => exact ih m'
            | _ => rfl

/-- What a launch does when the persistent variables are there. -/
def populate (w : World) (c : Collaboration) : World × Except EngineFault (List Nat) :=
  match buildAll w w.rootExtent none c.machines with
  | .error fault => (w, .error fault)
  | .ok (built, _) =>
      let ns := built.builtSince w.instances.length
      let text :=
        "Created " ++ toString ns.length ++ " instances of " ++ c.name ++ " (checksum " ++
          c.checksum ++ ")"
      ((built.remark ⟨.notice, none, text⟩).start ns, .ok ns)

theorem launch_eq (w : World) (c : Collaboration) :
    w.launch c =
      if w.isShutDown then (w, .error .shutDown)
      else match establish w.root w.rootExtent w.memory c.persistent with
        | (memory, .error fault) => ({ w with memory }, .error fault)
        | (memory, .ok ()) => populate { w with memory } c := rfl

theorem replace_populate (h : k ∉ w.rootExtent.layers) (hheld : k < w.memory.layers.length)
    (l : Layer) (c : Collaboration) :
    (w.replace k l).populate c = ((w.populate c).1.replace k l, (w.populate c).2) := by
  have hbuild : buildAll (w.replace k l) (w.replace k l).rootExtent none c.machines =
      (buildAll w w.rootExtent none c.machines).map fun built => (built.1.replace k l, built.2) :=
    replace_buildAll h hheld l none c.machines
  unfold populate
  rw [hbuild]
  cases buildAll w w.rootExtent none c.machines with
  | error fault => rfl
  | ok built =>
      obtain ⟨v, ns⟩ := built
      exact congrArg (·, Except.ok _) (replace_start (v.remark _) k l _)

theorem replace_launch (hroot : w.root ≠ k) (hheld : k < w.memory.layers.length) (l : Layer)
    (c : Collaboration) :
    (w.replace k l).launch c = ((w.launch c).1.replace k l, (w.launch c).2) := by
  have hunseen : k ∉ w.rootExtent.layers := fun hin => hroot (List.mem_singleton.1 hin).symm
  have hshut : (w.replace k l).isShutDown = w.isShutDown := rfl
  have hestablish : establish (w.replace k l).root (w.replace k l).rootExtent
      (w.replace k l).memory c.persistent =
        ((establish w.root w.rootExtent w.memory c.persistent).1.replace k l,
          (establish w.root w.rootExtent w.memory c.persistent).2) :=
    replace_establish hroot hunseen w.memory l c.persistent
  have hkinds := Memory.isStable_isPrefix_kinds.establish w.root w.rootExtent w.memory c.persistent
  rw [launch_eq, launch_eq, hshut, hestablish]
  split
  · rfl
  · generalize establish w.root w.rootExtent w.memory c.persistent = established at hkinds
    obtain ⟨m, outcome⟩ := established
    cases outcome with
    | error fault => rfl
    | ok done =>
        exact replace_populate (w := { w with memory := m }) hunseen
          (Memory.held_of_isPrefix hkinds hheld) l c

end World

end Statechart
