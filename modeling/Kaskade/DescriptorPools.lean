import Kaskade.BoundedSteps
import Kaskade.DependencyOrders
import Kaskade.MessageSelection

/-!
# Pools of descriptors

`descriptor_pool`: a file is added to a new pool after the files it imports. An import comes from the
given descriptors or else from the default pool, which has the well-known types.
-/

namespace Kaskade

open Python Dependencies

/-- A file with the names of the files it imports. -/
structure ImportingFile extends FileDescriptorProto where
  dependency : List Text

def importsOf (files : List ImportingFile) (name : Text) : List Text :=
  ((files.find? (·.name = name)).map (·.dependency)).getD []

/-- `DefaultDescriptorPool()`: every file was added after the files it imports. -/
structure DefaultPool where
  files : List ImportingFile
  closed : ∀ file ∈ files, ∀ d ∈ file.dependency, ∃ other ∈ files, other.name = d
  acyclic : ∀ name, ¬ Relation.TransGen (Depends (importsOf files)) name name

/-- `FindFileByName`, which raises `KeyError` where nothing is found. -/
def DefaultPool.findFileByName (defaults : DefaultPool) (name : Text) : Option ImportingFile :=
  defaults.files.find? (·.name = name)

/-- The files that a new pool has, in the order in which they were added, and the sets of the names
that were added and that are being visited. -/
structure PoolState where
  files : List ImportingFile
  added : List Text
  visiting : List Text

/-- `pool.Add` or `pool.AddSerializedFile`, for a pool of some files and a further file. -/
abbrev PoolAdd := List ImportingFile → ImportingFile → Outcome Unit

section

variable (poolAdd : PoolAdd) (defaults : DefaultPool) (descriptors : List (Text × ImportingFile))

/-- `_add_default_descriptor`, to a bounded depth. -/
def addDefaultDescriptorAt : ℕ → Text → PoolState → Steps PyException PoolState
  | 0, _, _ => .cutOff
  | depth + 1, name, s =>
    if name ∈ s.added then pure s
    else
      match defaults.findFileByName name with
      | none => throw (schemaError (text "Protobuf schema reference not found: " ++ name))
      | some descriptor => do
        let s ← descriptor.dependency.foldlM
          (fun s dependency => addDefaultDescriptorAt depth dependency s) s
        let () ← poolAdd s.files descriptor
        pure { s with files := s.files ++ [descriptor], added := s.added ++ [name] }

/-- The body of the loop of `_add_descriptor`, with the recursive calls. -/
def addReference (load : ImportingFile → PoolState → Steps PyException PoolState)
    (loadDefault : Text → PoolState → Steps PyException PoolState) (s : PoolState)
    (dependency : Text) : Steps PyException PoolState :=
  match descriptors.lookup dependency with
  | some referenced => load referenced s
  | none => loadDefault dependency s

/-- `_add_descriptor`, to a bounded depth. -/
def addDescriptorAt : ℕ → ImportingFile → PoolState → Steps PyException PoolState
  | 0, _, _ => .cutOff
  | depth + 1, descriptor, s =>
    if descriptor.name ∈ s.added then pure s
    else if descriptor.name ∈ s.visiting then
      throw (schemaError (text "Cyclic Protobuf schema reference"))
    else do
      let s ← descriptor.dependency.foldlM
        (addReference descriptors (addDescriptorAt depth)
          (addDefaultDescriptorAt poolAdd defaults depth))
        { s with visiting := s.visiting ++ [descriptor.name] }
      let () ← (poolAdd s.files descriptor).tryExcept [.typeError, .valueError] fun _ =>
        .error (schemaError (text "Invalid Protobuf descriptor: " ++ descriptor.name))
      pure {
        files := s.files ++ [descriptor]
        added := s.added ++ [descriptor.name]
        visiting := s.visiting.erase descriptor.name }

/-- `descriptor_pool`: the files of the new pool. -/
def descriptorPool (depth : ℕ) (root : ImportingFile) : Steps PyException (List ImportingFile) := do
  let s ← addDescriptorAt poolAdd defaults descriptors depth root ⟨[], [], []⟩
  pure s.files

/-- The file of a name: the root, a given descriptor, or a file of the default pool. -/
def fileOf (root : ImportingFile) (name : Text) : Option ImportingFile :=
  if name = root.name then some root
  else (descriptors.lookup name).or (defaults.findFileByName name)

def dependencies (root : ImportingFile) (name : Text) : List Text :=
  ((fileOf defaults descriptors root name).map (·.dependency)).getD []

def Given (root file : ImportingFile) : Prop :=
  file = root ∨ descriptors.lookup file.name = some file ∨
    defaults.findFileByName file.name = some file

/-- What pools do. A file is accepted once the files that it imports were added. A different file of
a name that was added is refused. -/
structure PoolAdd.Documented (root : ImportingFile) : Prop where
  accepts : ∀ files file, (∀ f ∈ file :: files, Given defaults descriptors root f) →
    (∀ d ∈ file.dependency, d ∈ files.map (·.name)) → file.name ∉ files.map (·.name) →
    poolAdd files file = .ok ()
  refuses : ∀ files file, ∀ other ∈ files, other.name = file.name → other ≠ file →
    poolAdd files file ≠ .ok ()
  raises : ∀ files file x, poolAdd files file = .error x → x.isInstance [.typeError, .valueError]

variable {poolAdd : PoolAdd} {defaults : DefaultPool} {descriptors : List (Text × ImportingFile)}
  {root : ImportingFile}

theorem DefaultPool.importsOf_eq {name : Text} {file : ImportingFile}
    (h : defaults.findFileByName name = some file) :
    importsOf defaults.files name = file.dependency := by
  rw [importsOf, ← findFileByName, h]
  rfl

theorem DefaultPool.name_eq {name : Text} {file : ImportingFile}
    (h : defaults.findFileByName name = some file) : file.name = name := by
  simpa using List.find?_some h

theorem DefaultPool.import_found {name d : Text} {file : ImportingFile}
    (h : defaults.findFileByName name = some file) (hd : d ∈ file.dependency) :
    ∃ other, defaults.findFileByName d = some other := by
  obtain ⟨other, hmem, hname⟩ := defaults.closed file (List.mem_of_find?_eq_some h) d hd
  have hsome : (defaults.files.find? fun file => file.name = d).isSome :=
    List.find?_isSome.mpr ⟨other, hmem, by simpa using hname⟩
  exact Option.isSome_iff_exists.mp hsome

theorem DefaultPool.found_of_reflTransGen {name d : Text} {file : ImportingFile}
    (h : defaults.findFileByName name = some file)
    (hd : Relation.ReflTransGen (Depends (importsOf defaults.files)) name d) :
    ∃ other, defaults.findFileByName d = some other := by
  induction hd with
  | refl => exact ⟨file, h⟩
  | tail _ hstep ih =>
    obtain ⟨other, hother⟩ := ih
    rw [Depends, defaults.importsOf_eq hother] at hstep
    exact defaults.import_found hother hstep

variable (defaults descriptors root) in
/-- The names that were added are those of the files, which were all given. -/
structure PoolState.Consistent (s : PoolState) : Prop where
  added : s.added = s.files.map (·.name)
  given : ∀ f ∈ s.files, Given defaults descriptors root f

variable (defaults descriptors root) in
/-- What the default pool adds for some names. -/
structure AddsDefault (names : List Text) (s s' : PoolState) : Prop where
  consistent : s'.Consistent defaults descriptors root
  visiting : s'.visiting = s.visiting
  files : ∀ f ∈ s.files, f ∈ s'.files
  fromDefault : ∀ f ∈ s'.files, f ∈ s.files ∨ defaults.findFileByName f.name = some f
  builds : Builds (importsOf defaults.files) names s.added s'.added

theorem AddsDefault.nil {s : PoolState} (hs : s.Consistent defaults descriptors root) :
    AddsDefault defaults descriptors root [] s s :=
  ⟨hs, rfl, fun _ => id, fun _ => .inl, .nil⟩

theorem AddsDefault.skip {s : PoolState} {name : Text} (hs : s.Consistent defaults descriptors root)
    (h : name ∈ s.added) : AddsDefault defaults descriptors root [name] s s :=
  ⟨hs, rfl, fun _ => id, fun _ => .inl, .skip h .nil⟩

theorem AddsDefault.cons {s s₁ s' : PoolState} {name : Text} {names : List Text}
    (h : AddsDefault defaults descriptors root [name] s s₁)
    (hrest : AddsDefault defaults descriptors root names s₁ s') :
    AddsDefault defaults descriptors root (name :: names) s s' := by
  refine ⟨hrest.consistent, hrest.visiting.trans h.visiting, fun f hf => hrest.files f (h.files f hf),
    fun f hf => ?_, h.builds.cons hrest.builds⟩
  rcases hrest.fromDefault f hf with hf | hf
  · exact h.fromDefault f hf
  · exact .inr hf

/-- A file with the names of files that were added, and with a new name, is accepted. -/
theorem PoolState.Consistent.accepts {s : PoolState} {file : ImportingFile}
    (hs : s.Consistent defaults descriptors root)
    (hdocumented : poolAdd.Documented defaults descriptors root)
    (hgiven : Given defaults descriptors root file) (hnew : file.name ∉ s.added)
    (himports : ∀ d ∈ file.dependency, d ∈ s.added) : poolAdd s.files file = .ok () := by
  rw [hs.added] at hnew himports
  exact hdocumented.accepts s.files file (List.forall_mem_cons.mpr ⟨hgiven, hs.given⟩) himports hnew

theorem PoolState.Consistent.snoc {s : PoolState} {file : ImportingFile} {visiting : List Text}
    (hs : s.Consistent defaults descriptors root) (hgiven : Given defaults descriptors root file) :
    PoolState.Consistent defaults descriptors root
      ⟨s.files ++ [file], s.added ++ [file.name], visiting⟩ := by
  refine ⟨by simp [hs.added], fun f hf => ?_⟩
  rcases List.mem_append.mp hf with hf | hf
  · exact hs.given f hf
  · exact List.mem_singleton.mp hf ▸ hgiven

/-- A file of the default pool is added with those it needs, or there is no such file. -/
theorem addDefaultDescriptorAt_run (hdocumented : poolAdd.Documented defaults descriptors root)
    {depth : ℕ} {name : Text} {s : PoolState} {r : Except PyException PoolState}
    (hs : s.Consistent defaults descriptors root)
    (h : (addDefaultDescriptorAt poolAdd defaults depth name s).run = some r) :
    (∀ s', r = .ok s' → AddsDefault defaults descriptors root [name] s s') ∧
      ∀ x, r = .error x → x.cls = .schemaError ∧ defaults.findFileByName name = none := by
  induction depth generalizing name s r with
  | zero => cases h
  | succ depth ih =>
    rw [addDefaultDescriptorAt] at h
    split at h
    next hadded =>
      cases h
      refine ⟨fun s' hs' => ?_, fun x hx => by cases hx⟩
      obtain rfl := Except.ok.inj hs'
      exact .skip hs hadded
    next hadded =>
      split at h
      next hnone =>
        cases h
        refine ⟨fun s' hs' => (by cases hs'), fun x hx => ?_⟩
        obtain rfl := Except.error.inj hx
        exact ⟨rfl, hnone⟩
      next descriptor hfound =>
        have hname := defaults.name_eq hfound
        have hgiven : Given defaults descriptors root descriptor := .inr (.inr (hname ▸ hfound))
        have hpass : ∀ d ∈ descriptor.dependency, ∀ s s',
            s.Consistent defaults descriptors root →
            (addDefaultDescriptorAt poolAdd defaults depth d s).run = some (.ok s') →
            s'.Consistent defaults descriptors root ∧
              AddsDefault defaults descriptors root [d] s s' := by
          intro d _ s s' hs hrun
          have hadds := (ih hs hrun).1 s' rfl
          exact ⟨hadds.consistent, hadds⟩
        have hloop : ∀ s₁, (descriptor.dependency.foldlM
            (fun s d => addDefaultDescriptorAt poolAdd defaults depth d s) s).run = some (.ok s₁) →
            AddsDefault defaults descriptors root descriptor.dependency s s₁ ∧
              descriptor.name ∉ s₁.added ∧ poolAdd s₁.files descriptor = .ok () := by
          intro s₁ hrun
          have hadds := Steps.run_foldlM_ok (R := AddsDefault defaults descriptors root)
            (fun s => AddsDefault.nil) (fun _ _ _ _ _ => AddsDefault.cons) hpass hs hrun
          have hnew : descriptor.name ∉ s₁.added := by
            intro hmem
            rcases hadds.builds.new_leads _ hmem with hmem | ⟨d, hd, hchain⟩
            · exact hadded (hname ▸ hmem)
            · refine defaults.acyclic descriptor.name (.head' ?_ hchain)
              rwa [Depends, hname, defaults.importsOf_eq hfound]
          exact ⟨hadds, hnew, hadds.consistent.accepts hdocumented hgiven hnew
            hadds.builds.targets_done⟩
        cases r with
        | error x =>
          exfalso
          rcases Steps.run_bind_eq_error.mp h with hrun | ⟨s₁, hrun, h⟩
          · obtain ⟨d, hd, s₁, hs₁, hrun⟩ := Steps.run_foldlM_stops
              (I := PoolState.Consistent defaults descriptors root) (by simp)
              (fun d hd s s' hs hrun => (hpass d hd s s' hs hrun).1) hs hrun
            obtain ⟨other, hother⟩ := defaults.import_found hfound hd
            rw [((ih hs₁ hrun).2 x rfl).2] at hother
            cases hother
          · rw [(hloop s₁ hrun).2.2] at h
            cases h
        | ok s' =>
          refine ⟨fun s'' hs'' => ?_, fun x hx => by cases hx⟩
          obtain rfl := Except.ok.inj hs''
          obtain ⟨s₁, hrun, h⟩ := Steps.run_bind_eq_ok.mp h
          obtain ⟨hadds, hnew, haccepted⟩ := hloop s₁ hrun
          rw [haccepted] at h
          cases h
          rw [hname] at hnew
          refine ⟨?_, hadds.visiting, fun f hf => List.mem_append_left _ (hadds.files f hf), ?_, ?_⟩
          · rw [← hname]
            exact hadds.consistent.snoc hgiven
          · intro f hf
            rcases List.mem_append.mp hf with hf | hf
            · exact hadds.fromDefault f hf
            · obtain rfl := List.mem_singleton.mp hf
              exact .inr (hname.symm ▸ hfound)
          · refine .build ?_ hnew .nil
            rw [defaults.importsOf_eq hfound]
            exact hadds.builds

theorem fileOf_root : fileOf defaults descriptors root root.name = some root := if_pos rfl

theorem dependencies_root : dependencies defaults descriptors root root.name = root.dependency := by
  rw [dependencies, fileOf_root]
  rfl

theorem fileOf_given {name : Text} {file : ImportingFile} (hname : name ≠ root.name)
    (h : descriptors.lookup name = some file) : fileOf defaults descriptors root name = some file := by
  rw [fileOf, if_neg hname, h]
  rfl

theorem dependencies_eq {name : Text} {file : ImportingFile}
    (h : fileOf defaults descriptors root name = some file) :
    dependencies defaults descriptors root name = file.dependency := by
  rw [dependencies, h]
  rfl

/-- The default pool agrees with the given descriptors about the imports of a file. -/
def DefaultPool.Agrees (defaults : DefaultPool) (descriptors : List (Text × ImportingFile)) : Prop :=
  ∀ name file other, descriptors.lookup name = some file →
    defaults.findFileByName name = some other → file.dependency = other.dependency

/-- Apart from the root, the graph has the imports of the default pool. -/
theorem DefaultPool.Agrees.dependencies_eq (hagrees : defaults.Agrees descriptors) {name : Text}
    {file : ImportingFile} (hname : name ≠ root.name)
    (h : defaults.findFileByName name = some file) :
    dependencies defaults descriptors root name = file.dependency := by
  cases hlookup : descriptors.lookup name with
  | none => rw [dependencies, fileOf, if_neg hname, hlookup, Option.none_or, h]; rfl
  | some given =>
    rw [Kaskade.dependencies_eq (fileOf_given hname hlookup)]
    exact hagrees name given file hlookup h

variable (defaults descriptors root) in
/-- A name under which the default pool has a file with the imports of the graph. -/
def Shared (name : Text) : Prop :=
  ∃ file, defaults.findFileByName name = some file ∧
    dependencies defaults descriptors root name = file.dependency

theorem DefaultPool.found_of_depends {name d : Text}
    (h : Depends (importsOf defaults.files) name d) :
    ∃ file, defaults.findFileByName name = some file ∧ d ∈ file.dependency := by
  cases hfound : defaults.findFileByName name with
  | none =>
    rw [Depends, importsOf, ← findFileByName, hfound] at h
    exact absurd h List.not_mem_nil
  | some file =>
    rw [Depends, defaults.importsOf_eq hfound] at h
    exact ⟨file, rfl, h⟩

/-- What the default pool leads to, up to the root, the graph leads to. -/
theorem DefaultPool.Agrees.leads_root (hagrees : defaults.Agrees descriptors) {name : Text}
    (hchain : Relation.ReflTransGen (Depends (importsOf defaults.files)) name root.name) :
    Relation.ReflTransGen (Depends (dependencies defaults descriptors root)) name root.name := by
  induction hchain using Relation.ReflTransGen.head_induction_on with
  | refl => exact .refl
  | @head name next hstep _ ih =>
    by_cases hname : name = root.name
    · rw [hname]
    · obtain ⟨file, hfile, hnext⟩ := defaults.found_of_depends hstep
      refine .head ?_ ih
      rwa [Depends, hagrees.dependencies_eq hname hfile]

variable (defaults descriptors root) in
/-- A file that is imported inside of others, which all lead to it. -/
structure Chain (visiting : List Text) (name : Text) : Prop where
  root_mem : root.name ∈ visiting
  leads : ∀ v ∈ visiting,
    Relation.TransGen (Depends (dependencies defaults descriptors root)) v name
  shared : ∀ v ∈ visiting, Shared defaults descriptors root v →
    Relation.TransGen (Depends (importsOf defaults.files)) v name

theorem Shared.step {name d : Text} (h : Shared defaults descriptors root name)
    (hd : d ∈ dependencies defaults descriptors root name) :
    Depends (importsOf defaults.files) name d := by
  obtain ⟨file, hfile, hsame⟩ := h
  rwa [Depends, defaults.importsOf_eq hfile, ← hsame]

theorem Chain.start {d : Text} (hd : d ∈ root.dependency) :
    Chain defaults descriptors root [root.name] d := by
  have hd : d ∈ dependencies defaults descriptors root root.name := by rwa [dependencies_root]
  refine ⟨List.mem_cons_self, fun v hv => ?_, fun v hv hshared => ?_⟩
  · obtain rfl := List.mem_singleton.mp hv
    exact .single hd
  · obtain rfl := List.mem_singleton.mp hv
    exact .single (hshared.step hd)

theorem Chain.push {visiting : List Text} {name d : Text} (hagrees : defaults.Agrees descriptors)
    (h : Chain defaults descriptors root visiting name) (hname : name ≠ root.name)
    (hd : d ∈ dependencies defaults descriptors root name) :
    Chain defaults descriptors root (visiting ++ [name]) d := by
  refine ⟨List.mem_append_left _ h.root_mem, fun v hv => ?_, fun v hv hshared => ?_⟩
  · rcases List.mem_append.mp hv with hv | hv
    · exact (h.leads v hv).tail hd
    · obtain rfl := List.mem_singleton.mp hv
      exact .single hd
  · rcases List.mem_append.mp hv with hv | hv
    · have hchain := h.shared v hv hshared
      obtain ⟨file, hfile, -⟩ := hshared
      obtain ⟨other, hother⟩ := defaults.found_of_reflTransGen hfile hchain.to_reflTransGen
      exact hchain.tail (Shared.step ⟨other, hother, hagrees.dependencies_eq hname hother⟩ hd)
    · obtain rfl := List.mem_singleton.mp hv
      exact .single (hshared.step hd)

variable (root) in
/-- Another file was added under the name of the root. -/
def PoolState.Poisoned (s : PoolState) : Prop :=
  ∃ f ∈ s.files, f.name = root.name ∧ f.dependency ≠ root.dependency

variable (defaults descriptors root) in
/-- What is added for some names, inside of the files that are visited. -/
structure Adds (names : List Text) (s s' : PoolState) : Prop where
  consistent : s'.Consistent defaults descriptors root
  visiting : s'.visiting = s.visiting
  files : ∀ f ∈ s.files, f ∈ s'.files
  targets : ∀ n ∈ names, n ∈ s'.added
  fresh : ∀ v ∈ s.visiting, v ≠ root.name → v ∈ s'.added → v ∈ s.added
  builds : root.name ∉ s'.added →
    Builds (dependencies defaults descriptors root) names s.added s'.added
  poisoned : root.name ∈ s'.added → root.name ∈ s.added ∨
    s'.Poisoned root ∧ Leads (dependencies defaults descriptors root) names root.name

theorem PoolState.Poisoned.mono {s s' : PoolState} (h : s.Poisoned root)
    (hfiles : ∀ f ∈ s.files, f ∈ s'.files) : s'.Poisoned root := by
  obtain ⟨f, hf, hpoisoned⟩ := h
  exact ⟨f, hfiles f hf, hpoisoned⟩

theorem PoolState.Consistent.added_mono {s s' : PoolState}
    (hs : s.Consistent defaults descriptors root) (hs' : s'.Consistent defaults descriptors root)
    (hfiles : ∀ f ∈ s.files, f ∈ s'.files) {n : Text} (hn : n ∈ s.added) : n ∈ s'.added := by
  rw [hs.added] at hn
  rw [hs'.added]
  obtain ⟨f, hf, rfl⟩ := List.mem_map.mp hn
  exact List.mem_map_of_mem (hfiles f hf)

theorem Adds.nil {s : PoolState} (hs : s.Consistent defaults descriptors root) :
    Adds defaults descriptors root [] s s :=
  ⟨hs, rfl, fun _ => id, fun _ hn => absurd hn List.not_mem_nil, fun _ _ _ => id, fun _ => .nil, .inl⟩

theorem Adds.skip {s : PoolState} {name : Text} (hs : s.Consistent defaults descriptors root)
    (h : name ∈ s.added) : Adds defaults descriptors root [name] s s :=
  ⟨hs, rfl, fun _ => id, fun _ hn => List.mem_singleton.mp hn ▸ h, fun _ _ _ => id,
    fun _ => .skip h .nil, .inl⟩

theorem Adds.cons {s s₁ s' : PoolState} {name : Text} {names : List Text}
    (h : Adds defaults descriptors root [name] s s₁)
    (hrest : Adds defaults descriptors root names s₁ s') :
    Adds defaults descriptors root (name :: names) s s' := by
  have hmono : ∀ n ∈ s₁.added, n ∈ s'.added := fun n hn =>
    h.consistent.added_mono hrest.consistent hrest.files hn
  refine ⟨hrest.consistent, hrest.visiting.trans h.visiting, fun f hf => hrest.files f (h.files f hf),
    ?_, ?_, ?_, ?_⟩
  · intro n hn
    rcases List.mem_cons.mp hn with rfl | hn
    · exact hmono n (h.targets n List.mem_cons_self)
    · exact hrest.targets n hn
  · intro v hv hne hadded
    exact h.fresh v hv hne (hrest.fresh v (h.visiting ▸ hv) hne hadded)
  · intro hroot
    exact (h.builds fun hmem => hroot (hmono _ hmem)).cons (hrest.builds hroot)
  · intro hroot
    rcases hrest.poisoned hroot with hmem | ⟨hpoisoned, t, ht, hchain⟩
    · rcases h.poisoned hmem with hmem | ⟨hpoisoned, t, ht, hchain⟩
      · exact .inl hmem
      · obtain rfl := List.mem_singleton.mp ht
        exact .inr ⟨hpoisoned.mono hrest.files, t, List.mem_cons_self, hchain⟩
    · exact .inr ⟨hpoisoned, t, List.mem_cons_of_mem _ ht, hchain⟩

/-- What the default pool adds inside of files that lead to it. -/
theorem AddsDefault.adds {s s' : PoolState} {name : Text} (hagrees : defaults.Agrees descriptors)
    (hs : s.Consistent defaults descriptors root)
    (hchain : Chain defaults descriptors root s.visiting name)
    (h : AddsDefault defaults descriptors root [name] s s') :
    Adds defaults descriptors root [name] s s' := by
  have hnew : ∀ n ∈ s'.added, n ∉ s.added →
      Relation.ReflTransGen (Depends (importsOf defaults.files)) name n ∧
        ∃ f ∈ s'.files, f.name = n ∧ defaults.findFileByName n = some f := by
    intro n hn hnot
    constructor
    · rcases h.builds.new_leads n hn with hmem | ⟨t, ht, hleads⟩
      · exact absurd hmem hnot
      · exact List.mem_singleton.mp ht ▸ hleads
    · rw [h.consistent.added] at hn
      obtain ⟨f, hf, rfl⟩ := List.mem_map.mp hn
      refine ⟨f, hf, rfl, (h.fromDefault f hf).resolve_left fun hold => hnot ?_⟩
      rw [hs.added]
      exact List.mem_map_of_mem hold
  refine ⟨h.consistent, h.visiting, h.files, h.builds.targets_done, ?_, ?_, ?_⟩
  · intro v hv hne hadded
    by_contra hnot
    obtain ⟨hleads, f, -, -, hf⟩ := hnew v hadded hnot
    have hcycle := hchain.shared v hv ⟨f, hf, hagrees.dependencies_eq hne hf⟩
    exact defaults.acyclic v (hcycle.trans_left hleads)
  · intro hroot
    refine h.builds.congr fun n hn hnot => ?_
    obtain ⟨-, f, -, -, hf⟩ := hnew n hn hnot
    have hne : n ≠ root.name := fun hsame => hroot (hsame ▸ hn)
    rw [defaults.importsOf_eq hf, hagrees.dependencies_eq hne hf]
  · intro hroot
    by_cases hnot : root.name ∈ s.added
    · exact .inl hnot
    obtain ⟨hleads, f, hmem, hname, hf⟩ := hnew _ hroot hnot
    refine .inr ⟨⟨f, hmem, hname, fun hsame => ?_⟩, name, List.mem_cons_self, ?_⟩
    · have hshared : Shared defaults descriptors root root.name :=
        ⟨f, hf, dependencies_root.trans hsame.symm⟩
      exact defaults.acyclic _ ((hchain.shared _ hchain.root_mem hshared).trans_left hleads)
    · exact hagrees.leads_root hleads

theorem Adds.snoc {s s₁ : PoolState} {file : ImportingFile}
    (hdocumented : poolAdd.Documented defaults descriptors root)
    (hfile : fileOf defaults descriptors root file.name = some file)
    (hgiven : Given defaults descriptors root file) (hroot : file.name ≠ root.name)
    (hadded : file.name ∉ s.added) (hvisiting : file.name ∉ s.visiting)
    (h : Adds defaults descriptors root file.dependency
      { s with visiting := s.visiting ++ [file.name] } s₁) :
    poolAdd s₁.files file = .ok () ∧
      Adds defaults descriptors root [file.name] s
        ⟨s₁.files ++ [file], s₁.added ++ [file.name], s₁.visiting.erase file.name⟩ := by
  have hnew : file.name ∉ s₁.added := fun hmem =>
    hadded (h.fresh file.name (by simp) hroot hmem)
  refine ⟨h.consistent.accepts hdocumented hgiven hnew h.targets, h.consistent.snoc hgiven, ?_, ?_,
    ?_, ?_, ?_, ?_⟩
  · rw [h.visiting, List.erase_append_right _ hvisiting]
    simp
  · exact fun f hf => List.mem_append_left _ (h.files f hf)
  · exact fun n hn => List.mem_append_right _ hn
  · intro v hv hne hmem
    rcases List.mem_append.mp hmem with hmem | hmem
    · exact h.fresh v (List.mem_append_left _ hv) hne hmem
    · exact absurd (List.mem_singleton.mp hmem ▸ hv) hvisiting
  · intro hmem
    refine .build ?_ hnew .nil
    rw [dependencies_eq hfile]
    exact h.builds fun hbefore => hmem (List.mem_append_left _ hbefore)
  · intro hmem
    have hbefore : root.name ∈ s₁.added := by simpa [hroot.symm] using hmem
    refine (h.poisoned hbefore).imp_right fun ⟨hpoisoned, t, ht, hchain⟩ => ⟨?_, ?_⟩
    · exact hpoisoned.mono fun f hf => List.mem_append_left _ hf
    · refine ⟨file.name, List.mem_cons_self, .head ?_ hchain⟩
      rwa [Depends, dependencies_eq hfile]

variable (defaults descriptors root) in
def Broken : Prop :=
  ¬ Acyclic (dependencies defaults descriptors root) [root.name] ∨
    ∃ name, Leads (dependencies defaults descriptors root) [root.name] name ∧
      fileOf defaults descriptors root name = none

/-- Every descriptor is given under the name of its file. -/
def Keyed (descriptors : List (Text × ImportingFile)) : Prop :=
  ∀ name file, descriptors.lookup name = some file → file.name = name

/-- A reference to a file that is being visited is a cycle. -/
theorem Chain.broken {visiting : List Text} {name : Text}
    (h : Chain defaults descriptors root visiting name) (hmem : name ∈ visiting) :
    Broken defaults descriptors root := by
  have hleads := (h.leads root.name h.root_mem).to_reflTransGen
  exact .inl fun hacyclic =>
    hacyclic name ⟨root.name, List.mem_cons_self, hleads⟩ (h.leads name hmem)

theorem Chain.broken_of_missing {visiting : List Text} {name : Text}
    (h : Chain defaults descriptors root visiting name) (hlookup : descriptors.lookup name = none)
    (hfind : defaults.findFileByName name = none) : Broken defaults descriptors root := by
  have hleads := h.leads root.name h.root_mem
  by_cases hname : name = root.name
  · rw [hname] at hleads
    exact .inl fun hacyclic => hacyclic root.name (leads_of_mem List.mem_cons_self) hleads
  · refine .inr ⟨name, ⟨root.name, List.mem_cons_self, hleads.to_reflTransGen⟩, ?_⟩
    rw [fileOf, if_neg hname, hlookup, hfind]
    rfl

variable (defaults descriptors root) in
/-- How a call that adds some names ends: they are added, or the graph is broken. -/
def Ends (names : List Text) (s : PoolState) (r : Except PyException PoolState) : Prop :=
  (∀ s', r = .ok s' → Adds defaults descriptors root names s s') ∧
    ∀ x, r = .error x → x.cls = .schemaError ∧ Broken defaults descriptors root

theorem Ends.ok {names : List Text} {s s' : PoolState}
    (h : Adds defaults descriptors root names s s') :
    Ends defaults descriptors root names s (.ok s') :=
  ⟨fun _ hs' => Except.ok.inj hs' ▸ h, fun _ hx => by cases hx⟩

theorem Ends.error {names : List Text} {s : PoolState} {x : PyException}
    (hx : x.cls = .schemaError) (h : Broken defaults descriptors root) :
    Ends defaults descriptors root names s (.error x) :=
  ⟨fun _ hs' => (by cases hs'), fun _ hx' => Except.error.inj hx' ▸ ⟨hx, h⟩⟩

/-- What one pass of the loop of `_add_descriptor` does, from what its recursive calls do. -/
theorem addReference_run (hdocumented : poolAdd.Documented defaults descriptors root)
    (hagrees : defaults.Agrees descriptors) (hkeyed : Keyed descriptors) {depth : ℕ}
    (hdescriptor : ∀ {referenced s r}, descriptors.lookup referenced.name = some referenced →
      s.Consistent defaults descriptors root →
      Chain defaults descriptors root s.visiting referenced.name →
      (addDescriptorAt poolAdd defaults descriptors depth referenced s).run = some r →
      Ends defaults descriptors root [referenced.name] s r)
    {name : Text} {s : PoolState} {r : Except PyException PoolState}
    (hs : s.Consistent defaults descriptors root)
    (hchain : Chain defaults descriptors root s.visiting name)
    (h : (addReference descriptors (addDescriptorAt poolAdd defaults descriptors depth)
      (addDefaultDescriptorAt poolAdd defaults depth) s name).run = some r) :
    Ends defaults descriptors root [name] s r := by
  rw [addReference] at h
  split at h
  next referenced hlookup =>
    obtain rfl := hkeyed name referenced hlookup
    exact hdescriptor hlookup hs hchain h
  next hlookup =>
    obtain ⟨hok, herror⟩ := addDefaultDescriptorAt_run hdocumented hs h
    refine ⟨fun s' hs' => (hok s' hs').adds hagrees hs hchain, fun x hx => ?_⟩
    obtain ⟨hcls, hfind⟩ := herror x hx
    exact ⟨hcls, hchain.broken_of_missing hlookup hfind⟩

theorem Ends.foldlM {f : PoolState → Text → Steps PyException PoolState} {names : List Text}
    {s : PoolState} {r : Except PyException PoolState}
    (hpass : ∀ d ∈ names, ∀ s₁ r, s₁.Consistent defaults descriptors root →
      s₁.visiting = s.visiting → (f s₁ d).run = some r → Ends defaults descriptors root [d] s₁ r)
    (hs : s.Consistent defaults descriptors root) (h : (names.foldlM f s).run = some r) :
    Ends defaults descriptors root names s r := by
  have hkeep : ∀ d ∈ names, ∀ s₁ s',
      s₁.Consistent defaults descriptors root ∧ s₁.visiting = s.visiting →
      (f s₁ d).run = some (.ok s') →
      (s'.Consistent defaults descriptors root ∧ s'.visiting = s.visiting) ∧
        Adds defaults descriptors root [d] s₁ s' := by
    intro d hd s₁ s' hs₁ hrun
    have hadds := (hpass d hd s₁ _ hs₁.1 hs₁.2 hrun).1 s' rfl
    exact ⟨⟨hadds.consistent, hadds.visiting.trans hs₁.2⟩, hadds⟩
  cases r with
  | ok s' =>
    exact .ok (Steps.run_foldlM_ok (R := Adds defaults descriptors root)
      (fun _ hs => Adds.nil hs.1) (fun _ _ _ _ _ => Adds.cons) hkeep ⟨hs, rfl⟩ h)
  | error x =>
    obtain ⟨d, hd, s₁, hs₁, hrun⟩ := Steps.run_foldlM_stops (by simp)
      (fun d hd s₁ s' hs₁ hrun => (hkeep d hd s₁ s' hs₁ hrun).1) ⟨hs, rfl⟩ h
    obtain ⟨hx, hbroken⟩ := (hpass d hd s₁ _ hs₁.1 hs₁.2 hrun).2 x rfl
    exact .error hx hbroken

theorem addDescriptorAt_run (hdocumented : poolAdd.Documented defaults descriptors root)
    (hagrees : defaults.Agrees descriptors) (hkeyed : Keyed descriptors) {depth : ℕ}
    {descriptor : ImportingFile} {s : PoolState} {r : Except PyException PoolState}
    (hlookup : descriptors.lookup descriptor.name = some descriptor)
    (hs : s.Consistent defaults descriptors root)
    (hchain : Chain defaults descriptors root s.visiting descriptor.name)
    (h : (addDescriptorAt poolAdd defaults descriptors depth descriptor s).run = some r) :
    Ends defaults descriptors root [descriptor.name] s r := by
  induction depth generalizing descriptor s r with
  | zero => cases h
  | succ depth ih =>
    rw [addDescriptorAt] at h
    split at h
    next hadded =>
      cases h
      exact .ok (.skip hs hadded)
    split at h
    next hvisiting =>
      cases h
      exact .error rfl (hchain.broken hvisiting)
    next hadded hvisiting =>
      have hroot : descriptor.name ≠ root.name := fun hsame => hvisiting (hsame ▸ hchain.root_mem)
      have hgiven : Given defaults descriptors root descriptor := .inr (.inl hlookup)
      have hfile : fileOf defaults descriptors root descriptor.name = some descriptor :=
        fileOf_given hroot hlookup
      have hchain' : ∀ d ∈ descriptor.dependency,
          Chain defaults descriptors root (s.visiting ++ [descriptor.name]) d :=
        fun d hd => hchain.push hagrees hroot ((dependencies_eq hfile).symm ▸ hd)
      have hloop : ∀ r, (descriptor.dependency.foldlM (addReference descriptors
          (addDescriptorAt poolAdd defaults descriptors depth)
          (addDefaultDescriptorAt poolAdd defaults depth))
          { s with visiting := s.visiting ++ [descriptor.name] }).run = some r →
          Ends defaults descriptors root descriptor.dependency
            { s with visiting := s.visiting ++ [descriptor.name] } r :=
        fun r => .foldlM (fun d hd s₁ r hs₁ hvisiting₁ => addReference_run hdocumented hagrees hkeyed
          ih hs₁ (hvisiting₁ ▸ hchain' d hd)) ⟨hs.added, hs.given⟩
      cases r with
      | error x =>
        rcases Steps.run_bind_eq_error.mp h with hrun | ⟨s₁, hrun, h⟩
        · obtain ⟨hx, hbroken⟩ := (hloop _ hrun).2 x rfl
          exact .error hx hbroken
        · obtain ⟨haccepted, -⟩ := ((hloop _ hrun).1 s₁ rfl).snoc hdocumented hfile hgiven hroot
            hadded hvisiting
          rw [haccepted] at h
          cases h
      | ok s' =>
        obtain ⟨s₁, hrun, h⟩ := Steps.run_bind_eq_ok.mp h
        obtain ⟨haccepted, hadds⟩ := ((hloop _ hrun).1 s₁ rfl).snoc hdocumented hfile hgiven hroot
          hadded hvisiting
        rw [haccepted] at h
        cases h
        exact .ok hadds

/-- The root is refused where another file was added under its name, and nowhere else. -/
theorem Adds.root_refused {s₁ : PoolState} (hdocumented : poolAdd.Documented defaults descriptors root)
    (h : Adds defaults descriptors root root.dependency ⟨[], [], [root.name]⟩ s₁) :
    poolAdd s₁.files root ≠ .ok () ↔ root.name ∈ s₁.added := by
  constructor
  · intro hrefused
    by_contra hnew
    exact hrefused (h.consistent.accepts hdocumented (.inl rfl) hnew h.targets)
  · intro hmem
    obtain ⟨⟨f, hf, hname, hother⟩, -⟩ := (h.poisoned hmem).resolve_left List.not_mem_nil
    exact hdocumented.refuses s₁.files root f hf hname fun hsame => hother (by rw [hsame])

theorem addDescriptorAt_root_run (hdocumented : poolAdd.Documented defaults descriptors root)
    (hagrees : defaults.Agrees descriptors) (hkeyed : Keyed descriptors) {depth : ℕ}
    {r : Except PyException PoolState}
    (h : (addDescriptorAt poolAdd defaults descriptors depth root ⟨[], [], []⟩).run = some r) :
    (∀ s', r = .ok s' → s'.Consistent defaults descriptors root ∧
      Builds (dependencies defaults descriptors root) [root.name] [] s'.added) ∧
      ∀ x, r = .error x → x.cls = .schemaError ∧ Broken defaults descriptors root := by
  cases depth with
  | zero => cases h
  | succ depth =>
    rw [addDescriptorAt, if_neg List.not_mem_nil, if_neg List.not_mem_nil] at h
    have hempty : PoolState.Consistent defaults descriptors root ⟨[], [], [root.name]⟩ :=
      ⟨rfl, by simp⟩
    have hloop : ∀ r, (root.dependency.foldlM (addReference descriptors
        (addDescriptorAt poolAdd defaults descriptors depth)
        (addDefaultDescriptorAt poolAdd defaults depth)) ⟨[], [], [root.name]⟩).run = some r →
        Ends defaults descriptors root root.dependency ⟨[], [], [root.name]⟩ r :=
      fun r => .foldlM (fun d hd s₁ r hs₁ hvisiting₁ => addReference_run hdocumented hagrees hkeyed
        (addDescriptorAt_run hdocumented hagrees hkeyed) hs₁ (hvisiting₁ ▸ Chain.start hd)) hempty
    cases r with
    | error x =>
      refine ⟨fun s' hs' => (by cases hs'), fun x' hx' => ?_⟩
      obtain rfl := Except.error.inj hx'
      rcases Steps.run_bind_eq_error.mp h with hrun | ⟨s₁, hrun, h⟩
      · exact (hloop _ hrun).2 x rfl
      have hadds := (hloop _ hrun).1 s₁ rfl
      cases hadd : poolAdd s₁.files root with
      | ok _ =>
        rw [hadd] at h
        cases h
      | error e =>
        have hmem := (hadds.root_refused hdocumented).mp (by simp [hadd])
        obtain ⟨-, t, ht, hchain⟩ := (hadds.poisoned hmem).resolve_left List.not_mem_nil
        have hcycle : Broken defaults descriptors root := by
          refine .inl fun hacyclic => hacyclic root.name (leads_of_mem List.mem_cons_self) ?_
          refine .head' ?_ hchain
          rwa [Depends, dependencies_root]
        rw [hadd, Outcome.tryExcept_caught (hdocumented.raises s₁.files root e hadd)] at h
        cases h
        exact ⟨rfl, hcycle⟩
    | ok s' =>
      refine ⟨fun s'' hs'' => ?_, fun x hx => by cases hx⟩
      obtain rfl := Except.ok.inj hs''
      obtain ⟨s₁, hrun, h⟩ := Steps.run_bind_eq_ok.mp h
      have hadds := (hloop _ hrun).1 s₁ rfl
      cases hadd : poolAdd s₁.files root with
      | error e =>
        rw [hadd, Outcome.tryExcept_caught (hdocumented.raises s₁.files root e hadd)] at h
        cases h
      | ok _ =>
        have hnew : root.name ∉ s₁.added := fun hmem =>
          (hadds.root_refused hdocumented).mpr hmem hadd
        rw [hadd] at h
        cases h
        refine ⟨hadds.consistent.snoc (.inl rfl), .build ?_ hnew .nil⟩
        rw [dependencies_root]
        exact hadds.builds hnew

/-- The default pool has no cycles, so that its files come to an end. -/
theorem addDefaultDescriptorAt_ends {depth : ℕ} {name : Text} {s : PoolState} (chain : List Text)
    (hchain : ∀ v ∈ chain, Relation.TransGen (Depends (importsOf defaults.files)) v name)
    (hdepth : outside (defaults.files.map (·.name)).toFinset chain < depth) :
    (addDefaultDescriptorAt poolAdd defaults depth name s).run ≠ none := by
  induction depth generalizing name s chain with
  | zero => exact absurd hdepth (Nat.not_lt_zero _)
  | succ depth ih =>
    intro hnone
    rw [addDefaultDescriptorAt] at hnone
    split at hnone
    · cases hnone
    split at hnone
    · cases hnone
    next descriptor hfound =>
      rcases Steps.run_bind_eq_none.mp hnone with hloop | ⟨s₁, -, hnone⟩
      · obtain ⟨d, hd, s₁, -, hrun⟩ := Steps.run_foldlM_stops (I := fun _ => True) (by simp)
          (fun _ _ _ _ _ _ => trivial) trivial hloop
        have hstep : Depends (importsOf defaults.files) name d := by
          rwa [Depends, defaults.importsOf_eq hfound]
        have hmem : name ∈ (defaults.files.map (·.name)).toFinset :=
          List.mem_toFinset.mpr (List.mem_map.mpr
            ⟨descriptor, List.mem_of_find?_eq_some hfound, defaults.name_eq hfound⟩)
        have hnew : name ∉ chain := fun hmem => defaults.acyclic name (hchain name hmem)
        have hless := outside_lt hmem hnew
        refine ih (chain ++ [name]) (fun v hv => ?_) (by omega) hrun
        rcases List.mem_append.mp hv with hv | hv
        · exact (hchain v hv).tail hstep
        · obtain rfl := List.mem_singleton.mp hv
          exact .single hstep
      · rcases Steps.run_bind_eq_none.mp hnone with hlift | ⟨_, -, hnone⟩
        · cases hlift
        · cases hnone

/-- The loop of `_add_descriptor` comes to an end if its recursive calls do. -/
theorem addReferences_ends (hdocumented : poolAdd.Documented defaults descriptors root)
    (hagrees : defaults.Agrees descriptors) (hkeyed : Keyed descriptors) {depth : ℕ}
    {names : List Text} {s : PoolState} (hs : s.Consistent defaults descriptors root)
    (hchain : ∀ d ∈ names, Chain defaults descriptors root s.visiting d)
    (hdepth : outside (defaults.files.map (·.name)).toFinset [] < depth)
    (hdescriptor : ∀ {referenced s₁}, descriptors.lookup referenced.name = some referenced →
      s₁.Consistent defaults descriptors root → s₁.visiting = s.visiting →
      Chain defaults descriptors root s₁.visiting referenced.name →
      (addDescriptorAt poolAdd defaults descriptors depth referenced s₁).run ≠ none) :
    (names.foldlM (addReference descriptors (addDescriptorAt poolAdd defaults descriptors depth)
      (addDefaultDescriptorAt poolAdd defaults depth)) s).run ≠ none := by
  intro hnone
  obtain ⟨d, hd, s₁, ⟨hs₁, hvisiting⟩, hrun⟩ := Steps.run_foldlM_stops
    (I := fun s₁ => s₁.Consistent defaults descriptors root ∧ s₁.visiting = s.visiting) (by simp)
    (fun d hd s₁ s' hs₁ hrun => by
      have hadds := (addReference_run hdocumented hagrees hkeyed
        (addDescriptorAt_run hdocumented hagrees hkeyed) hs₁.1 (hs₁.2 ▸ hchain d hd) hrun).1 s' rfl
      exact ⟨hadds.consistent, hadds.visiting.trans hs₁.2⟩) ⟨hs, rfl⟩ hnone
  rw [addReference] at hrun
  split at hrun
  next referenced hlookup =>
    obtain rfl := hkeyed d referenced hlookup
    exact hdescriptor hlookup hs₁ hvisiting (hvisiting ▸ hchain _ hd) hrun
  next =>
    refine addDefaultDescriptorAt_ends [] ?_ hdepth hrun
    exact fun v hv => absurd hv List.not_mem_nil

/-- A chain of files contains no file twice. -/
theorem addDescriptorAt_ends (hdocumented : poolAdd.Documented defaults descriptors root)
    (hagrees : defaults.Agrees descriptors) (hkeyed : Keyed descriptors) {depth : ℕ}
    {descriptor : ImportingFile} {s : PoolState}
    (hlookup : descriptors.lookup descriptor.name = some descriptor)
    (hs : s.Consistent defaults descriptors root)
    (hchain : Chain defaults descriptors root s.visiting descriptor.name)
    (hdepth : outside (descriptors.map (·.1)).toFinset s.visiting +
      outside (defaults.files.map (·.name)).toFinset [] < depth) :
    (addDescriptorAt poolAdd defaults descriptors depth descriptor s).run ≠ none := by
  induction depth generalizing descriptor s with
  | zero => exact absurd hdepth (Nat.not_lt_zero _)
  | succ depth ih =>
    intro hnone
    rw [addDescriptorAt] at hnone
    split at hnone
    · cases hnone
    split at hnone
    · cases hnone
    next hvisiting =>
      have hroot : descriptor.name ≠ root.name := fun hsame => hvisiting (hsame ▸ hchain.root_mem)
      have hfile : fileOf defaults descriptors root descriptor.name = some descriptor :=
        fileOf_given hroot hlookup
      have hmem : descriptor.name ∈ (descriptors.map (·.1)).toFinset := by
        obtain ⟨before, after, hsplit, -⟩ := List.lookup_eq_some_iff.mp hlookup
        rw [hsplit]
        simp
      have hless := outside_lt hmem hvisiting
      rcases Steps.run_bind_eq_none.mp hnone with hloop | ⟨s₁, -, hnone⟩
      · refine addReferences_ends hdocumented hagrees hkeyed
          (s := { s with visiting := s.visiting ++ [descriptor.name] }) ⟨hs.added, hs.given⟩
          (fun d hd => ?_) (by omega)
          (fun hlookup₁ hs₁ hvisiting₁ hchain₁ => ih hlookup₁ hs₁ hchain₁ ?_) hloop
        · exact hchain.push hagrees hroot ((dependencies_eq hfile).symm ▸ hd)
        · simp only [hvisiting₁]
          omega
      · rcases Steps.run_bind_eq_none.mp hnone with hlift | ⟨_, -, hnone⟩
        · cases hlift
        · cases hnone

/-- As deep as there are names, the call for the root comes to an end. -/
theorem addDescriptorAt_root_ends (hdocumented : poolAdd.Documented defaults descriptors root)
    (hagrees : defaults.Agrees descriptors) (hkeyed : Keyed descriptors) :
    ∃ depth r, (addDescriptorAt poolAdd defaults descriptors depth root ⟨[], [], []⟩).run =
      some r := by
  refine ⟨outside (descriptors.map (·.1)).toFinset [root.name] +
    outside (defaults.files.map (·.name)).toFinset [] + 2, ?_⟩
  apply Option.ne_none_iff_exists'.mp
  intro hnone
  rw [addDescriptorAt, if_neg List.not_mem_nil, if_neg List.not_mem_nil] at hnone
  rcases Steps.run_bind_eq_none.mp hnone with hloop | ⟨s₁, -, hnone⟩
  · refine addReferences_ends hdocumented hagrees hkeyed (s := ⟨[], [], [root.name]⟩)
      ⟨rfl, by simp⟩ (fun d hd => Chain.start hd) (by omega)
      (fun hlookup₁ hs₁ hvisiting₁ hchain₁ => ?_) hloop
    refine addDescriptorAt_ends hdocumented hagrees hkeyed hlookup₁ hs₁ hchain₁ ?_
    simp only [hvisiting₁]
    omega
  · rcases Steps.run_bind_eq_none.mp hnone with hlift | ⟨_, -, hnone⟩
    · cases hlift
    · cases hnone

theorem Given.fileOf {file : ImportingFile} (h : Given defaults descriptors root file) :
    ∃ other, fileOf defaults descriptors root file.name = some other := by
  by_cases hname : file.name = root.name
  · exact ⟨root, if_pos hname⟩
  rw [Kaskade.fileOf, if_neg hname]
  rcases h with rfl | hlookup | hfind
  · exact absurd rfl hname
  · exact ⟨file, by rw [hlookup]; rfl⟩
  · cases hlookup : descriptors.lookup file.name with
    | none => exact ⟨file, by rw [Option.none_or, hfind]⟩
    | some other => exact ⟨other, rfl⟩

/-- The result of `descriptor_pool`: a pool exactly if the imports that the root leads to have no
cycle and are all found, and otherwise a `SchemaError`. The pool has every file that the root leads
to, once, after the files that it imports. -/
theorem descriptorPool_result (hdocumented : poolAdd.Documented defaults descriptors root)
    (hagrees : defaults.Agrees descriptors) (hkeyed : Keyed descriptors) :
    ∃ depth result, (descriptorPool poolAdd defaults descriptors depth root).run = some result ∧
      ((∃ files, result = .ok files) ↔
        Acyclic (dependencies defaults descriptors root) [root.name] ∧
        ∀ name, Leads (dependencies defaults descriptors root) [root.name] name →
          ∃ file, fileOf defaults descriptors root name = some file) ∧
      (∀ x, result = .error x → x.cls = .schemaError) ∧
      ∀ files, result = .ok files → (files.map (·.name)).Nodup ∧
        InOrder (dependencies defaults descriptors root) (files.map (·.name)) ∧
        (∀ name, name ∈ files.map (·.name) ↔
          Leads (dependencies defaults descriptors root) [root.name] name) ∧
        ∀ file ∈ files, Given defaults descriptors root file := by
  obtain ⟨depth, r, hrun⟩ := addDescriptorAt_root_ends hdocumented hagrees hkeyed
  obtain ⟨hok, herror⟩ := addDescriptorAt_root_run hdocumented hagrees hkeyed hrun
  refine ⟨depth, r.map (·.files), ?_, ⟨?_, ?_⟩, ?_, ?_⟩
  · rw [descriptorPool, Steps.run_bind, hrun]
    cases r <;> rfl
  · rintro ⟨files, hfiles⟩
    cases r with
    | error x => cases hfiles
    | ok s' =>
      obtain ⟨hconsistent, hbuilds⟩ := hok s' rfl
      obtain ⟨-, -, hmem, hacyclic⟩ := hbuilds.complete
      refine ⟨hacyclic, fun name hname => ?_⟩
      have hadded := (hmem name).mpr hname
      rw [hconsistent.added] at hadded
      obtain ⟨file, hfile, rfl⟩ := List.mem_map.mp hadded
      exact (hconsistent.given file hfile).fileOf
  · rintro ⟨hacyclic, hfound⟩
    cases r with
    | ok s' => exact ⟨s'.files, rfl⟩
    | error x =>
      rcases (herror x rfl).2 with hcyclic | ⟨name, hname, hmissing⟩
      · exact absurd hacyclic hcyclic
      · obtain ⟨file, hfile⟩ := hfound name hname
        rw [hmissing] at hfile
        cases hfile
  · intro x hx
    cases r with
    | ok s' => cases hx
    | error x' =>
      obtain rfl := Except.error.inj hx
      exact (herror x' rfl).1
  · intro files hfiles
    cases r with
    | error x => cases hfiles
    | ok s' =>
      obtain rfl := Except.ok.inj hfiles
      obtain ⟨hconsistent, hbuilds⟩ := hok s' rfl
      rw [hconsistent.added] at hbuilds
      obtain ⟨hnodup, hordered, hmem, -⟩ := hbuilds.complete
      exact ⟨hnodup, hordered, hmem, hconsistent.given⟩

end

def checkedAdd : PoolAdd := fun files file =>
  if file.name ∈ files.map (·.name) then .error ⟨.typeError, text "duplicate file name"⟩
  else if ∀ d ∈ file.dependency, d ∈ files.map (·.name) then .ok ()
  else .error ⟨.typeError, text "Couldn't build proto file into descriptor pool"⟩

theorem checkedAdd_documented (defaults : DefaultPool) (descriptors : List (Text × ImportingFile))
    (root : ImportingFile) : PoolAdd.Documented checkedAdd defaults descriptors root := by
  refine ⟨fun files file _ himports hnew => ?_, fun files file other hmem hname _ => ?_,
    fun files file x h => ?_⟩
  · rw [checkedAdd, if_neg hnew, if_pos himports]
  · rw [checkedAdd, if_pos (List.mem_map.mpr ⟨other, hmem, hname⟩)]
    simp
  · rw [checkedAdd] at h
    split at h
    · cases h
      rfl
    split at h
    · cases h
    · cases h
      rfl

def fileImporting (name : Text) (dependency : List Text) : ImportingFile where
  name := name
  package := []
  messageType := []
  dependency := dependency

def timestampPool : DefaultPool where
  files := [fileImporting (text "timestamp.proto") []]
  closed := by simp [fileImporting]
  acyclic name h := by
    obtain ⟨d, hd, -⟩ := Relation.TransGen.head'_iff.mp h
    have hnone : importsOf [fileImporting (text "timestamp.proto") []] name = [] := by
      by_cases hname : text "timestamp.proto" = name
      · simp [importsOf, fileImporting, hname]
      · simp [importsOf, fileImporting, hname]
    rw [Depends, hnone] at hd
    cases hd

def orderDescriptors : List (Text × ImportingFile) :=
  [(text "item.proto", fileImporting (text "item.proto") [text "timestamp.proto"])]

def orderFile : ImportingFile :=
  fileImporting (text "order.proto") [text "item.proto", text "timestamp.proto"]

/-- The pool of a file that imports a well-known file, and another file that imports it too. -/
theorem descriptorPool_result_order :
    ∃ depth result, (descriptorPool checkedAdd timestampPool orderDescriptors depth orderFile).run =
        some result ∧
      ((∃ files, result = .ok files) ↔
        Acyclic (dependencies timestampPool orderDescriptors orderFile) [orderFile.name] ∧
        ∀ name, Leads (dependencies timestampPool orderDescriptors orderFile) [orderFile.name] name →
          ∃ file, fileOf timestampPool orderDescriptors orderFile name = some file) ∧
      (∀ x, result = .error x → x.cls = .schemaError) ∧
      ∀ files, result = .ok files → (files.map (·.name)).Nodup ∧
        InOrder (dependencies timestampPool orderDescriptors orderFile) (files.map (·.name)) ∧
        (∀ name, name ∈ files.map (·.name) ↔
          Leads (dependencies timestampPool orderDescriptors orderFile) [orderFile.name] name) ∧
        ∀ file ∈ files, Given timestampPool orderDescriptors orderFile file := by
  have hlookup : ∀ name file, orderDescriptors.lookup name = some file →
      name = text "item.proto" ∧ file = fileImporting (text "item.proto") [text "timestamp.proto"] := by
    intro name file h
    obtain ⟨before, after, hsplit, -⟩ := List.lookup_eq_some_iff.mp h
    have hmem : (name, file) ∈ orderDescriptors := hsplit ▸ by simp
    exact Prod.mk.inj (List.mem_singleton.mp hmem)
  refine descriptorPool_result (checkedAdd_documented _ _ _) ?_ ?_
  · intro name file other hfile hother
    obtain ⟨rfl, -⟩ := hlookup name file hfile
    cases hother
  · intro name file hfile
    obtain ⟨rfl, rfl⟩ := hlookup name file hfile
    rfl

end Kaskade
