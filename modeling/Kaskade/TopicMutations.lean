import Kaskade.CreateForms
import Kaskade.ExclusiveWorkers
import Kaskade.OffsetResets

/-!
# Mutations of the cluster

`ListTopics` from the keys that open a screen to the calls that change the cluster: the forms, their
reviews and confirmations, and the workers of the group `topic-mutation`.
-/

namespace Kaskade

open Python

structure SelectedTopic where
  name : Text
  partitionsCount : ℕ

/-- The screens above the topic list. -/
inductive AdminScreen where
  | createTopic
  | editTopic (topic : Text) (form : EditTopicScreen)
  | reviewChanges (topic : Text) (command : UpdateTopicCommand)
  | deleteTopic (topic : Text)
  /-- `group_actions` is given or `None`. -/
  | describeTopic (topic : Text) (groupActions : Bool)
  | resetOffsets (topic group : Text)
  | reviewReset (plan : OffsetResetPlan)
  | deleteGroup (group : Text)
  | filterTopics
  | help

def AdminScreen.Reads : AdminScreen → Prop
  | .describeTopic _ groupActions => groupActions = false
  | .filterTopics | .help => True
  | _ => False

/-- The worker of the group `topic-config`, which opens a screen when it has loaded. -/
inductive DetailsLoad where
  | edit (topic : SelectedTopic)
  | describe (topic : SelectedTopic)

/-- A method that changes the cluster, with its arguments. -/
inductive ServiceCall where
  | create (command : CreateTopicCommand)
  | addPartitions (topic : Text) (partitions : ℤ)
  | edit (topic : Text) (changes : List ConfigChange)
  | delete (topic : Text)
  | applyReset (plan : OffsetResetPlan)
  | deleteGroup (group : Text)

/-- What a worker of the group `topic-mutation` is started with. -/
inductive TopicMutation where
  | createTopic (command : CreateTopicCommand)
  | updateTopic (topic : Text) (command : UpdateTopicCommand)
  | deleteTopic (topic : Text)
  | resetOffsets (plan : OffsetResetPlan)
  | deleteGroup (group : Text)

def TopicMutation.calls : TopicMutation → List ServiceCall
  | .createTopic command => [.create command]
  | .updateTopic topic command =>
    (command.partitions.map (.addPartitions topic)).toList
      ++ if command.configs.isEmpty then [] else [.edit topic command.configs]
  | .deleteTopic topic => [.delete topic]
  | .resetOffsets plan => [.applyReset plan]
  | .deleteGroup group => [.deleteGroup group]

structure AdminTopics where
  readOnly : Bool
  currentTopic : Option SelectedTopic := none
  /-- The open screens, from the top one down. -/
  screens : List AdminScreen := []
  loading : Option DetailsLoad := none
  /-- What the worker of the reset form computes a plan for. -/
  planning : Option ResetOffsetsCommand := none
  begun : List TopicMutation := []
  group : ExclusiveWorkers ServiceCall := {}

/-- The keys of the user with what the inputs hold then, and the ends of what runs meanwhile. -/
inductive AdminAction where
  | highlight (topic : Option SelectedTopic)
  | new
  | edit
  | delete
  | describe
  | filter
  | help
  | loadDetails (configurations : Option (List TopicConfiguration))
  | create (inputs : CreateInputs)
  | save (inputs : TopicInputs)
  | confirm (typed : Text)
  | startReset (group : Text)
  | startDelete (group : Text)
  | preview (command : ResetOffsetsCommand)
  | plan (result : Option OffsetResetPlan)
  | apply
  | back
  | work (event : WorkerEvent ServiceCall)

def AdminAction.isNavigation : AdminAction → Bool
  | .create _ | .save _ | .confirm _ | .apply | .work _ => false
  | _ => true

namespace AdminTopics

/-- `begin_mutation()` and the start of the worker. -/
def mutate (s : AdminTopics) (mutation : TopicMutation) : AdminTopics :=
  { s with begun := s.begun ++ [mutation], group := s.group.start mutation.calls }

section Steps

variable {D : Type} {python : Conversions D} (validators : TopicValidators python)

/-- The state after an action that is offered. An action whose inputs make `int` raise ends the
application, and is none of these. -/
def step (s : AdminTopics) : AdminAction → Option AdminTopics
  | .highlight topic => some { s with currentTopic := topic }
  | .new =>
    match s.screens, s.readOnly with
    | [], false => some { s with screens := [.createTopic] }
    | _, _ => none
  | .edit =>
    match s.screens, s.readOnly, s.currentTopic with
    | [], false, some topic => some { s with loading := some (.edit topic) }
    | _, _, _ => none
  | .delete =>
    match s.screens, s.readOnly, s.currentTopic with
    | [], false, some topic => some { s with screens := [.deleteTopic topic.name] }
    | _, _, _ => none
  | .describe =>
    match s.screens, s.currentTopic with
    | [], some topic => some { s with loading := some (.describe topic) }
    | _, _ => none
  | .filter =>
    match s.screens with
    | [] => some { s with screens := [.filterTopics] }
    | _ => none
  | .help => some { s with screens := .help :: s.screens }
  | .loadDetails configurations =>
    match s.loading, configurations with
    | some (.edit topic), some configurations =>
      let form := EditTopicScreen.new topic.partitionsCount configurations
      some { s with loading := none, screens := .editTopic topic.name form :: s.screens }
    | some (.describe topic), some _ =>
      some { s with loading := none, screens := .describeTopic topic.name (!s.readOnly) :: s.screens }
    | some _, none => some { s with loading := none }
    | none, _ => none
  | .create inputs =>
    match s.screens, CreateTopicScreen.createCommand validators inputs with
    | .createTopic :: below, .ok (.ok command) =>
      some ({ s with screens := below }.mutate (.createTopic command))
    | .createTopic :: _, .ok (.error _) => some s
    | _, _ => none
  | .save inputs =>
    match s.screens with
    | .editTopic topic form :: below =>
      match form.failures validators.toIntegerValidator inputs, form.updateCommand python inputs with
      | .ok [], .ok command =>
        if command.changed then
          some { s with screens := .reviewChanges topic command :: .editTopic topic form :: below }
        else some { s with screens := below }
      | .ok (_ :: _), _ => some s
      | _, _ => none
    | _ => none
  | .confirm typed =>
    match s.screens with
    | .deleteTopic topic :: below =>
      if topic = typed then some ({ s with screens := below }.mutate (.deleteTopic topic)) else some s
    | .deleteGroup group :: below =>
      if group = typed then some ({ s with screens := below }.mutate (.deleteGroup group)) else some s
    | _ => none
  | .startReset group =>
    match s.screens with
    | .describeTopic topic true :: below =>
      some { s with screens := .resetOffsets topic group :: .describeTopic topic true :: below }
    | _ => none
  | .startDelete group =>
    match s.screens with
    | .describeTopic topic true :: below =>
      some { s with screens := .deleteGroup group :: .describeTopic topic true :: below }
    | _ => none
  | .preview command =>
    match s.screens with
    | .resetOffsets topic group :: _ =>
      if command.topic = topic ∧ command.group = group then some { s with planning := some command }
      else none
    | _ => none
  | .plan result =>
    match s.planning, result with
    | some _, some plan => some { s with planning := none, screens := .reviewReset plan :: s.screens }
    | some _, none => some { s with planning := none }
    | none, _ => none
  | .apply =>
    match s.screens with
    | .reviewChanges _ command :: .editTopic topic _ :: below =>
      some ({ s with screens := below }.mutate (.updateTopic topic command))
    | .reviewReset plan :: .resetOffsets _ _ :: below =>
      some ({ s with screens := below, planning := none }.mutate (.resetOffsets plan))
    -- A form that another screen covers is not dismissed.
    | .reviewChanges _ _ :: below => some { s with screens := below }
    | .reviewReset _ :: below => some { s with screens := below }
    | _ => none
  | .back =>
    match s.screens with
    | [] => none
    | .resetOffsets _ _ :: below => some { s with screens := below, planning := none }
    | _ :: below => some { s with screens := below }
  | .work (.start _) => none
  | .work event => (s.group.step event).map ({ s with group := · })

def Step (s : AdminTopics) (action : AdminAction) (t : AdminTopics) : Prop :=
  s.step validators action = some t

/-- The form that is open makes this command of inputs that it finds valid. -/
def Spells (form : EditTopicScreen) (command : UpdateTopicCommand) : Prop :=
  ∃ inputs, form.failures validators.toIntegerValidator inputs = .ok [] ∧
    form.updateCommand python inputs = .ok command

/-- The action by which the user asks for a mutation: a valid form, a review, or the name of what
goes, typed as it is. -/
inductive Confirms : List AdminScreen → AdminAction → TopicMutation → Prop where
  | create {inputs : CreateInputs} {command : CreateTopicCommand} (below : List AdminScreen) :
      CreateTopicScreen.Accepts validators inputs command →
      Confirms (.createTopic :: below) (.create inputs) (.createTopic command)
  | update {form : EditTopicScreen} {command : UpdateTopicCommand} (topic : Text)
      (below : List AdminScreen) : Spells validators form command →
      Confirms (.reviewChanges topic command :: .editTopic topic form :: below) .apply
        (.updateTopic topic command)
  | delete (topic : Text) (below : List AdminScreen) :
      Confirms (.deleteTopic topic :: below) (.confirm topic) (.deleteTopic topic)
  | reset (plan : OffsetResetPlan) (below : List AdminScreen) :
      Confirms (.reviewReset plan :: below) .apply (.resetOffsets plan)
  | deleteGroup (group : Text) (below : List AdminScreen) :
      Confirms (.deleteGroup group :: below) (.confirm group) (.deleteGroup group)

def Nested : List AdminScreen → Prop
  | [] => True
  | .reviewChanges topic command :: below =>
    (∃ form rest, below = .editTopic topic form :: rest ∧ Spells validators form command) ∧
      Nested below
  | _ :: below => Nested below

end Steps

variable {D : Type} {python : Conversions D} {validators : TopicValidators python}
  {s t : AdminTopics}

theorem Nested.tail {screen : AdminScreen} {below : List AdminScreen}
    (h : Nested validators (screen :: below)) : Nested validators below := by
  cases screen with
  | reviewChanges topic command => exact h.2
  | _ => exact h

inductive Progress (validators : TopicValidators python) (s : AdminTopics) (action : AdminAction)
    (t : AdminTopics) : Prop where
  | keeps (begun : t.begun = s.begun) (group : t.group = s.group)
  | begins (mutation : TopicMutation) (confirms : Confirms validators s.screens action mutation)
      (begun : t.begun = s.begun ++ [mutation]) (group : t.group = s.group.start mutation.calls)
  | works (event : WorkerEvent ServiceCall) (other : ∀ plan, event ≠ .start plan)
      (begun : t.begun = s.begun) (group : s.group.step event = some t.group)

/-- A screen is opened that is no review of changes, or the top one is closed, or nothing. -/
inductive Navigates : List AdminScreen → List AdminScreen → Prop where
  | stays (screens : List AdminScreen) : Navigates screens screens
  | opens (screen : AdminScreen) (screens : List AdminScreen)
      (other : ∀ topic command, screen ≠ .reviewChanges topic command) :
      Navigates screens (screen :: screens)
  | closes (screen : AdminScreen) (screens : List AdminScreen) : Navigates (screen :: screens) screens

theorem Nested.navigates {screens screens' : List AdminScreen} (h : Nested validators screens)
    (hscreens : Navigates screens screens') : Nested validators screens' := by
  cases hscreens with
  | stays => exact h
  | opens screen _ hother =>
    cases screen with
    | reviewChanges topic command => exact absurd rfl (hother topic command)
    | _ => exact h
  | closes => exact h.tail

theorem Step.navigates {action : AdminAction} (hstep : Step validators s action t)
    (haction : action.isNavigation = true) :
    Navigates s.screens t.screens ∧ t.begun = s.begun ∧ t.group = s.group := by
  obtain ⟨readOnly, currentTopic, screens, loading, planning, begun, group⟩ := s
  cases action with
  | create inputs | save inputs | confirm typed | work event => cases haction
  | apply => cases haction
  | highlight topic =>
    obtain rfl := Option.some.inj hstep
    exact ⟨.stays _, rfl, rfl⟩
  | help =>
    obtain rfl := Option.some.inj hstep
    exact ⟨.opens .help _ fun _ _ => AdminScreen.noConfusion, rfl, rfl⟩
  | back =>
    cases screens with
    | nil => cases hstep
    | cons screen below =>
      cases screen <;> obtain rfl := Option.some.inj hstep <;> exact ⟨.closes _ _, rfl, rfl⟩
  | plan result | loadDetails result =>
    simp only [Step, step] at hstep
    split at hstep
    all_goals
      cases hstep
      try first
        | exact ⟨.stays _, rfl, rfl⟩
        | exact ⟨.opens _ _ fun _ _ => AdminScreen.noConfusion, rfl, rfl⟩
  | preview command =>
    simp only [Step, step] at hstep
    split at hstep
    next =>
      split_ifs at hstep
      obtain rfl := Option.some.inj hstep
      exact ⟨.stays _, rfl, rfl⟩
    next => cases hstep
  | edit | describe =>
    simp only [Step, step] at hstep
    split at hstep
    next =>
      obtain rfl := Option.some.inj hstep
      exact ⟨.stays _, rfl, rfl⟩
    next => cases hstep
  | startReset name | startDelete name =>
    simp only [Step, step] at hstep
    split at hstep
    next =>
      obtain rfl := Option.some.inj hstep
      exact ⟨.opens _ _ fun _ _ => AdminScreen.noConfusion, rfl, rfl⟩
    next => cases hstep
  | new | delete | filter =>
    simp only [Step, step] at hstep
    split at hstep
    next =>
      obtain rfl := Option.some.inj hstep
      exact ⟨.opens _ _ fun _ _ => AdminScreen.noConfusion, rfl, rfl⟩
    next => cases hstep

theorem Step.work {event : WorkerEvent ServiceCall} (hstep : Step validators s (.work event) t) :
    t.screens = s.screens ∧ Progress validators s (.work event) t := by
  have hworks : (∀ plan, event ≠ .start plan) →
      (s.group.step event).map ({ s with group := · }) = some t →
      t.screens = s.screens ∧ Progress validators s (.work event) t := by
    intro hother h
    obtain ⟨after, hafter, rfl⟩ := Option.map_eq_some_iff.mp h
    exact ⟨rfl, .works event hother rfl hafter⟩
  cases event with
  | start plan => cases hstep
  | call id => exact hworks (fun plan heq => by cases heq) hstep
  | answer id raised => exact hworks (fun plan heq => by cases heq) hstep
  | finish id => exact hworks (fun plan heq => by cases heq) hstep

theorem Step.create {inputs : CreateInputs} (h : Nested validators s.screens)
    (hstep : Step validators s (.create inputs) t) :
    Nested validators t.screens ∧ Progress validators s (.create inputs) t := by
  obtain ⟨readOnly, currentTopic, screens, loading, planning, begun, group⟩ := s
  simp only [Step, step] at hstep
  split at hstep
  next _ _ below command hcommand =>
    obtain rfl := Option.some.inj hstep
    exact ⟨h.tail, .begins _ (.create below (CreateTopicScreen.createCommand_eq_ok.mp hcommand))
      rfl rfl⟩
  next =>
    obtain rfl := Option.some.inj hstep
    exact ⟨h, .keeps rfl rfl⟩
  next => cases hstep

/-- Changes that are saved are reviewed above the form that spells them. -/
theorem Step.save {inputs : TopicInputs} (h : Nested validators s.screens)
    (hstep : Step validators s (.save inputs) t) :
    Nested validators t.screens ∧ Progress validators s (.save inputs) t := by
  obtain ⟨readOnly, currentTopic, screens, loading, planning, begun, group⟩ := s
  simp only [Step, step] at hstep
  split at hstep
  next _ topic form below =>
    split at hstep
    next command hvalid hcommand =>
      split_ifs at hstep
      · obtain rfl := Option.some.inj hstep
        exact ⟨⟨⟨form, below, rfl, inputs, hvalid, hcommand⟩, h⟩, .keeps rfl rfl⟩
      · obtain rfl := Option.some.inj hstep
        exact ⟨h.tail, .keeps rfl rfl⟩
    next =>
      obtain rfl := Option.some.inj hstep
      exact ⟨h, .keeps rfl rfl⟩
    next => cases hstep
  next => cases hstep

theorem Step.confirm {typed : Text} (h : Nested validators s.screens)
    (hstep : Step validators s (.confirm typed) t) :
    Nested validators t.screens ∧ Progress validators s (.confirm typed) t := by
  obtain ⟨readOnly, currentTopic, screens, loading, planning, begun, group⟩ := s
  simp only [Step, step] at hstep
  split at hstep
  next _ topic below =>
    split_ifs at hstep with htyped
    · subst htyped
      obtain rfl := Option.some.inj hstep
      exact ⟨h.tail, .begins _ (.delete topic below) rfl rfl⟩
    · obtain rfl := Option.some.inj hstep
      exact ⟨h, .keeps rfl rfl⟩
  next _ name below =>
    split_ifs at hstep with htyped
    · subst htyped
      obtain rfl := Option.some.inj hstep
      exact ⟨h.tail, .begins _ (.deleteGroup name below) rfl rfl⟩
    · obtain rfl := Option.some.inj hstep
      exact ⟨h, .keeps rfl rfl⟩
  next => cases hstep

theorem Step.apply (h : Nested validators s.screens) (hstep : Step validators s .apply t) :
    Nested validators t.screens ∧ Progress validators s .apply t := by
  obtain ⟨readOnly, currentTopic, screens, loading, planning, begun, group⟩ := s
  simp only [Step, step] at hstep
  split at hstep
  next _ reviewed command topic form below =>
    obtain rfl := Option.some.inj hstep
    obtain ⟨⟨opened, rest, heq, hspells⟩, hbelow⟩ := h
    obtain ⟨heq, rfl⟩ := List.cons.inj heq
    cases heq
    exact ⟨hbelow, .begins _ (.update _ below hspells) rfl rfl⟩
  next _ plan topic name below =>
    obtain rfl := Option.some.inj hstep
    exact ⟨h, .begins _ (.reset plan _) rfl rfl⟩
  next _ reviewed command below hother =>
    obtain rfl := Option.some.inj hstep
    exact ⟨h.tail, .keeps rfl rfl⟩
  next _ plan below hother =>
    obtain rfl := Option.some.inj hstep
    exact ⟨h, .keeps rfl rfl⟩
  next => cases hstep

theorem Step.progress {action : AdminAction} (h : Nested validators s.screens)
    (hstep : Step validators s action t) :
    Nested validators t.screens ∧ Progress validators s action t := by
  cases hnavigation : action.isNavigation with
  | true =>
    obtain ⟨hscreens, hbegun, hgroup⟩ := hstep.navigates hnavigation
    exact ⟨h.navigates hscreens, .keeps hbegun hgroup⟩
  | false =>
    cases action with
    | create inputs => exact hstep.create h
    | save inputs => exact hstep.save h
    | confirm typed => exact hstep.confirm h
    | apply => exact hstep.apply h
    | work event =>
      obtain ⟨hscreens, hprogress⟩ := hstep.work
      exact ⟨hscreens ▸ h, hprogress⟩
    | _ => cases hnavigation

def mounted (readOnly : Bool) : AdminTopics where
  readOnly := readOnly

structure Orderly (validators : TopicValidators python) (s : AdminTopics) : Prop where
  nested : Nested validators s.screens
  plans : s.group.plans = s.begun.map TopicMutation.calls
  follows : s.group.Follows

theorem Orderly.step {action : AdminAction} (h : Orderly validators s)
    (hstep : Step validators s action t) : Orderly validators t := by
  obtain ⟨hnested, hprogress⟩ := hstep.progress h.nested
  cases hprogress with
  | keeps hbegun hgroup =>
    refine ⟨hnested, ?_, hgroup ▸ h.follows⟩
    rw [hgroup, hbegun, h.plans]
  | begins mutation hconfirms hbegun hgroup =>
    refine ⟨hnested, ?_, hgroup ▸ h.follows.start mutation.calls⟩
    rw [hgroup, hbegun, List.map_append, ← h.plans]
    rfl
  | works event hother hbegun hgroup =>
    refine ⟨hnested, ?_, h.follows.step hgroup⟩
    rw [ExclusiveWorkers.Step.plans hgroup hother, hbegun, h.plans]

theorem orderly_run {readOnly : Bool} {actions : List AdminAction}
    (hrun : Run (Step validators) (mounted readOnly) actions s) : Orderly validators s :=
  hrun.invariant (fun _ _ _ h hstep => h.step hstep)
    ⟨trivial, rfl, ExclusiveWorkers.follows_empty⟩

def ConfirmedIn (validators : TopicValidators python) (readOnly : Bool) (actions : List AdminAction)
    (id : ℕ) (mutation : TopicMutation) : Prop :=
  ∃ before action after t, actions = before ++ action :: after ∧
    Run (Step validators) (mounted readOnly) before t ∧ t.begun.length = id ∧
    Confirms validators t.screens action mutation

theorem ConfirmedIn.snoc {readOnly : Bool} {actions : List AdminAction} {id : ℕ}
    {mutation : TopicMutation} (h : ConfirmedIn validators readOnly actions id mutation)
    (action : AdminAction) : ConfirmedIn validators readOnly (actions ++ [action]) id mutation := by
  obtain ⟨before, confirming, after, t, rfl, hrun, hlength, hconfirms⟩ := h
  refine ⟨before, confirming, after ++ [action], t, ?_, hrun, hlength, hconfirms⟩
  rw [List.append_assoc]
  rfl

theorem confirmed_of_begun {readOnly : Bool} {actions : List AdminAction}
    (hrun : Run (Step validators) (mounted readOnly) actions s) {id : ℕ} {mutation : TopicMutation}
    (hbegun : s.begun[id]? = some mutation) :
    ConfirmedIn validators readOnly actions id mutation := by
  induction hrun with
  | nil => cases hbegun
  | @snoc actions before after action hbefore hlast ih =>
    obtain ⟨-, hprogress⟩ := hlast.progress (orderly_run hbefore).nested
    cases hprogress with
    | keeps hkept _ => exact (ih (hkept ▸ hbegun)).snoc action
    | works _ _ hkept _ => exact (ih (hkept ▸ hbegun)).snoc action
    | begins last hconfirms hadded _ =>
      rw [hadded] at hbegun
      by_cases hearlier : id < before.begun.length
      · rw [List.getElem?_append_left hearlier] at hbegun
        exact (ih hbegun).snoc action
      · have hlength := (List.getElem?_eq_some_iff.mp hbegun).choose
        rw [List.length_append, List.length_singleton] at hlength
        obtain rfl : id = before.begun.length := by omega
        rw [List.getElem?_concat_length] at hbegun
        obtain rfl := Option.some.inj hbegun
        exact ⟨actions, action, [], before, rfl, hbefore, rfl, hconfirms⟩

/-- Each call that reaches the cluster in a run is one of a mutation that the user confirmed on the
screen on top. The calls of a mutation are the first of those that it has to make, in their order,
and all of them when its worker comes to its end; and no call of a mutation is made after the first
call of a later one. -/
theorem calls_confirmed {readOnly : Bool} {actions : List AdminAction}
    (hrun : Run (Step validators) (mounted readOnly) actions s) :
    (∀ call ∈ s.group.calls, ∃ mutation, s.begun[call.1]? = some mutation ∧
      s.group.callsOf call.1 <+: mutation.calls ∧
      ConfirmedIn validators readOnly actions call.1 mutation) ∧
    (∀ id ∈ s.group.completed, ∃ mutation, s.begun[id]? = some mutation ∧
      s.group.callsOf id = mutation.calls) ∧
    (s.group.calls.map Prod.fst).Pairwise (· ≤ ·) := by
  obtain ⟨-, hplans, hfollows⟩ := orderly_run hrun
  have hbegun : ∀ {id : ℕ} {plan : List ServiceCall}, s.group.plans[id]? = some plan →
      ∃ mutation, s.begun[id]? = some mutation ∧ mutation.calls = plan := by
    intro id plan hplan
    rw [hplans, List.getElem?_map] at hplan
    exact Option.map_eq_some_iff.mp hplan
  refine ⟨fun call hcall => ?_, fun id hid => ?_, hfollows.ordered⟩
  · obtain ⟨plan, hplan⟩ : ∃ plan, s.group.plans[call.1]? = some plan :=
      ⟨_, List.getElem?_eq_getElem (hfollows.bounded call hcall)⟩
    obtain ⟨mutation, hmutation, rfl⟩ := hbegun hplan
    exact ⟨mutation, hmutation, hfollows.prefixes _ _ hplan, confirmed_of_begun hrun hmutation⟩
  · obtain ⟨mutation, hmutation, hcalls⟩ := hbegun (hfollows.completed id hid)
    exact ⟨mutation, hmutation, hcalls.symm⟩

def deletesOrders : List AdminAction :=
  [.highlight (some ⟨text "orders", 3⟩), .delete, .confirm (text "order"), .confirm (text "orders"),
    .work (.call 0), .highlight none, .work (.answer 0 false), .work (.finish 0)]

theorem calls_confirmed_orders :
    ∃ s : AdminTopics, s.group.completed = [0] ∧ ∃ mutation, s.begun[0]? = some mutation ∧
      s.group.callsOf 0 = mutation.calls := by
  have hrun : Run (Step (TopicValidators.ofInt oneTime)) (mounted false) deletesOrders _ :=
    .of_foldlM rfl
  exact ⟨_, rfl, (calls_confirmed hrun).2.1 0 List.mem_cons_self⟩

theorem mem_callsOf {group : ExclusiveWorkers ServiceCall} {call : ℕ × ServiceCall}
    (h : call ∈ group.calls) : call.2 ∈ group.callsOf call.1 := by
  apply List.mem_map_of_mem
  rw [List.mem_filter]
  exact ⟨h, decide_eq_true rfl⟩

/-- A topic that the cluster is asked to create in a run has a name it takes, at least one partition,
and no more in-sync replicas than replicas. -/
theorem created_well_formed {readOnly : Bool} {actions : List AdminAction}
    (hrun : Run (Step validators) (mounted readOnly) actions s) {id : ℕ}
    {command : CreateTopicCommand} (hcall : (id, .create command) ∈ s.group.calls) :
    ∃ topic, command.newTopic python = .ok topic ∧ topic.WellFormed := by
  obtain ⟨mutation, -, hprefix, hconfirmed⟩ := (calls_confirmed hrun).1 _ hcall
  have hmem : ServiceCall.create command ∈ mutation.calls := hprefix.mem (mem_callsOf hcall)
  obtain ⟨before, action, after, t, -, -, -, hconfirms⟩ := hconfirmed
  generalize t.screens = screens at hconfirms
  cases hconfirms with
  | create below haccepts =>
    obtain rfl : command = _ := by simpa [TopicMutation.calls] using hmem
    exact haccepts.newTopic
  | @update form changes topic below hspells =>
    rcases List.mem_append.mp hmem with hpartitions | hconfigs
    · simp at hpartitions
    · split_ifs at hconfigs <;> simp at hconfigs
  | delete topic below => simp [TopicMutation.calls] at hmem
  | reset plan below => simp [TopicMutation.calls] at hmem
  | deleteGroup group below => simp [TopicMutation.calls] at hmem

def createsInvoices : List AdminAction :=
  [.new, .create ⟨text "invoices", text "6", text "-1", text "2", text "3", none⟩,
    .create ⟨text "invoices", text "6", text "-1", text "2", text "1", none⟩, .work (.call 0)]

theorem created_well_formed_invoices :
    ∃ command topic, command.name = text "invoices" ∧
      CreateTopicCommand.newTopic oneTime command = .ok topic ∧ topic.WellFormed := by
  have hrun : Run (Step (TopicValidators.ofInt oneTime)) (mounted false) createsInvoices _ :=
    .of_foldlM rfl
  obtain ⟨topic, htopic, hformed⟩ := created_well_formed hrun List.mem_cons_self
  exact ⟨_, topic, rfl, htopic, hformed⟩

/-- What holds in read-only mode. -/
structure ReadsOnly (s : AdminTopics) : Prop where
  readOnly : s.readOnly = true
  screens : ∀ screen ∈ s.screens, screen.Reads
  loading : ∀ topic, s.loading ≠ some (.edit topic)
  planning : s.planning = none

theorem ReadsOnly.not_confirms (h : ReadsOnly s) {action : AdminAction} {mutation : TopicMutation} :
    ¬ Confirms validators s.screens action mutation := by
  intro hconfirms
  have hreads := h.screens
  generalize s.screens = screens at hconfirms hreads
  cases hconfirms with
  | create below _ => exact hreads _ List.mem_cons_self
  | update topic below _ => exact hreads _ List.mem_cons_self
  | delete topic below => exact hreads _ List.mem_cons_self
  | reset plan below => exact hreads _ List.mem_cons_self
  | deleteGroup group below => exact hreads _ List.mem_cons_self

theorem ReadsOnly.step {action : AdminAction} (h : ReadsOnly s)
    (hstep : Step validators s action t) : ReadsOnly t := by
  obtain ⟨readOnly, currentTopic, screens, loading, planning, begun, group⟩ := s
  obtain ⟨hreadOnly, hscreens, hloading, hplanning⟩ := h
  dsimp only at hreadOnly hscreens hloading hplanning
  subst hreadOnly hplanning
  have hopen : ∀ {screen : AdminScreen}, screen.Reads →
      ∀ other ∈ screen :: screens, other.Reads := fun hscreen =>
    List.forall_mem_cons.mpr ⟨hscreen, hscreens⟩
  cases action with
  | highlight topic =>
    obtain rfl := Option.some.inj hstep
    exact ⟨rfl, hscreens, hloading, rfl⟩
  | help =>
    obtain rfl := Option.some.inj hstep
    exact ⟨rfl, hopen trivial, hloading, rfl⟩
  | new | edit | delete => simp [Step, AdminTopics.step] at hstep
  | plan result => simp [Step, AdminTopics.step] at hstep
  | describe =>
    simp only [Step, AdminTopics.step] at hstep
    split at hstep
    next =>
      obtain rfl := Option.some.inj hstep
      exact ⟨rfl, hscreens, fun topic heq => (by cases heq), rfl⟩
    next => cases hstep
  | filter =>
    simp only [Step, AdminTopics.step] at hstep
    split at hstep
    next =>
      obtain rfl := Option.some.inj hstep
      exact ⟨rfl, hopen trivial, hloading, rfl⟩
    next => cases hstep
  | loadDetails configurations =>
    simp only [Step, AdminTopics.step] at hstep
    split at hstep
    next topic configurations => exact absurd rfl (hloading topic)
    next =>
      obtain rfl := Option.some.inj hstep
      exact ⟨rfl, hopen rfl, fun topic heq => (by cases heq), rfl⟩
    next =>
      obtain rfl := Option.some.inj hstep
      exact ⟨rfl, hscreens, fun topic heq => (by cases heq), rfl⟩
    next => cases hstep
  | back =>
    cases screens with
    | nil => cases hstep
    | cons screen below =>
      have hbelow := fun other hother => hscreens other (List.mem_cons_of_mem screen hother)
      cases screen <;> obtain rfl := Option.some.inj hstep
      all_goals exact ⟨rfl, hbelow, hloading, rfl⟩
  | work event =>
    cases event with
    | start plan => cases hstep
    | _ =>
      obtain ⟨after, hafter, rfl⟩ := Option.map_eq_some_iff.mp hstep
      exact ⟨rfl, hscreens, hloading, rfl⟩
  | create inputs | save inputs | confirm typed | startReset name | startDelete name
  | preview command | apply =>
    -- The action is of a screen that read-only mode does not open.
    cases screens with
    | nil => simp [Step, AdminTopics.step] at hstep
    | cons screen below =>
      have htop := hscreens screen List.mem_cons_self
      cases screen
      all_goals first
        | exact absurd htop id
        | (obtain rfl : _ = false := htop; cases hstep)
        | cases hstep

/-- In read-only mode no form or confirmation opens, no mutation is begun, and no call that changes
the cluster is made, whatever the user does. -/
theorem readOnly_never_mutates {actions : List AdminAction}
    (hrun : Run (Step validators) (mounted true) actions s) :
    (∀ screen ∈ s.screens, screen.Reads) ∧ s.begun = [] ∧ s.group.calls = [] := by
  have hreads : ReadsOnly s ∧ s.begun = [] := by
    refine (hrun.invariant (I := fun s => (Orderly validators s ∧ ReadsOnly s) ∧ s.begun = [])
      ?_ ⟨⟨⟨trivial, rfl, ExclusiveWorkers.follows_empty⟩, ⟨rfl, ?_, ?_, rfl⟩⟩, rfl⟩).imp_left
      And.right
    · rintro s action t ⟨⟨horderly, hreads⟩, hbegun⟩ hstep
      refine ⟨⟨horderly.step hstep, hreads.step hstep⟩, ?_⟩
      cases (hstep.progress horderly.nested).2 with
      | keeps hkept _ => rw [hkept, hbegun]
      | begins mutation hconfirms _ _ => exact absurd hconfirms hreads.not_confirms
      | works event _ hkept _ => rw [hkept, hbegun]
    · exact fun screen hscreen => absurd hscreen List.not_mem_nil
    · exact fun topic heq => by cases heq
  obtain ⟨hreads, hbegun⟩ := hreads
  refine ⟨hreads.screens, hbegun, List.eq_nil_iff_forall_not_mem.mpr fun call hcall => ?_⟩
  obtain ⟨mutation, hmutation, -⟩ := (calls_confirmed hrun).1 call hcall
  rw [hbegun] at hmutation
  cases hmutation

def browsesOrders : List AdminAction :=
  [.highlight (some ⟨text "orders", 3⟩), .describe, .filter, .back, .loadDetails (some []), .help]

theorem readOnly_never_mutates_orders :
    ∃ s : AdminTopics, s.screens = [.help, .describeTopic (text "orders") false] ∧
      s.begun = [] ∧ s.group.calls = [] := by
  have hrun : Run (Step (TopicValidators.ofInt oneTime)) (mounted true) browsesOrders _ :=
    .of_foldlM rfl
  exact ⟨_, rfl, (readOnly_never_mutates hrun).2⟩

end AdminTopics

end Kaskade
