import Nanoclaw.Lib.System
import Nanoclaw.Types.Event

/-!
# The Control Queue of the Runtime

Prompts and steers wait in one queue until the runtime takes them, prompts only from the front
and steers also past the prompts before them. The host may change and withdraw what waits.
`ControlRun` is the queue with what was pushed and delivered.
-/

namespace Nanoclaw

open List

inductive RuntimeCommand where
  | prompt (message : Message) (submittedPrompt : Option SubmittedPromptSnapshot)
  | steer (message : String) (reason : Option String)

inductive RuntimeCommandLane where
  | idle
  | safePoint
  deriving DecidableEq

/-- The lane that a command is pushed to. -/
def RuntimeCommand.lane : RuntimeCommand → RuntimeCommandLane
  | .prompt .. => .idle
  | .steer .. => .safePoint

def matchesRuntimeCommandKind : RuntimeCommand → RuntimeCommand → Bool
  | .prompt .., .prompt .. => true
  | .steer .., .steer .. => true
  | _, _ => false

/-- The identifiers never repeat; they count the commands pushed. -/
structure QueuedRuntimeCommand where
  id : Nat
  command : RuntimeCommand
  lane : RuntimeCommandLane

abbrev RuntimeControlPlane := List QueuedRuntimeCommand

variable {p : QueuedRuntimeCommand → Bool} {queued : QueuedRuntimeCommand}

namespace RuntimeControlPlane

variable (queue : RuntimeControlPlane)

/-- Take the first command out that meets a condition. -/
def takeFirst (p : QueuedRuntimeCommand → Bool) :
    Option (QueuedRuntimeCommand × RuntimeControlPlane) :=
  (queue.find? p).map (·, queue.eraseP p)

def remove (id : Nat) :=
  queue.takeFirst (·.id == id)

def popNext :=
  queue.takeFirst fun _ => true

def popNextSafePoint :=
  queue.takeFirst (·.lane == .safePoint)

/-- A command is only replaced by one of its kind. -/
def update (id : Nat) (command : RuntimeCommand) : RuntimeControlPlane → RuntimeControlPlane
  | [] => []
  | queued :: rest =>
    if queued.id ≠ id then queued :: update id command rest
    else if matchesRuntimeCommandKind queued.command command then { queued with command } :: rest
    else queued :: rest

theorem takeFirst_eq_some {queue rest : RuntimeControlPlane}
    (h : queue.takeFirst p = some (queued, rest)) :
    ∃ front back, queue = front ++ queued :: back ∧ rest = front ++ back ∧ p queued = true ∧
      ∀ x ∈ front, p x = false := by
  obtain ⟨found, hfound, heq⟩ := Option.map_eq_some_iff.mp h
  cases heq
  obtain ⟨hp, front, back, hqueue, hfront⟩ := find?_eq_some_iff_append.mp hfound
  have hfront : ∀ x ∈ front, p x = false := by simpa using hfront
  refine ⟨front, back, hqueue, ?_, hp, hfront⟩
  rw [hqueue, eraseP_append_right _ (by simpa using hfront), eraseP_cons_of_pos hp]

/-- What an update makes of a queued command. -/
def updated (id : Nat) (command : RuntimeCommand) (queued : QueuedRuntimeCommand) :
    QueuedRuntimeCommand :=
  if queued.id = id ∧ matchesRuntimeCommandKind queued.command command = true then
    { queued with command }
  else queued

variable (id : Nat) (command : RuntimeCommand)

@[simp] theorem id_updated : (updated id command queued).id = queued.id := by
  unfold updated
  split <;> rfl

@[simp] theorem lane_updated : (updated id command queued).lane = queued.lane := by
  unfold updated
  split <;> rfl

@[simp] theorem kind_updated : (updated id command queued).command.lane = queued.command.lane := by
  unfold updated
  split
  next h => obtain ⟨_, _ | _, _⟩ := queued <;> cases command <;> first | rfl | cases h.2
  · rfl

/-- Identifiers are queued once, so an update reaches the one it names. -/
theorem update_eq_map {queue : RuntimeControlPlane} (h : (queue.map (·.id)).Nodup) :
    queue.update id command = queue.map (updated id command) := by
  induction queue with
  | nil => rfl
  | cons queued rest ih =>
    obtain ⟨hfirst, hrest⟩ := nodup_cons.mp h
    rw [update, map_cons, updated]
    by_cases hid : queued.id = id
    · have hsame : rest.map (updated id command) = rest := by
        refine (map_congr_left fun other hother => if_neg ?_).trans (map_id' _)
        rintro ⟨hother', -⟩
        exact hfirst (mem_map.mpr ⟨other, hother, hother'.trans hid.symm⟩)
      rw [hsame]
      split_ifs <;> simp_all
    · rw [if_pos hid, if_neg fun hboth => hid hboth.1, ih hrest]

end RuntimeControlPlane

/-- What the host and the runtime do to the queue. -/
inductive ControlAction where
  | push (command : RuntimeCommand)
  | update (id : Nat) (command : RuntimeCommand)
  | remove (id : Nat)
  | clear
  | popNext
  | popNextSafePoint

/-- The queue, how many commands were pushed, and what was delivered. -/
structure ControlRun where
  pushed : Nat := 0
  queue : RuntimeControlPlane := []
  delivered : List QueuedRuntimeCommand := []

namespace ControlRun

open RuntimeControlPlane

variable (actions : List ControlAction)

/-- What a pop has taken out of the queue is delivered. -/
def deliver (run : ControlRun) : Option (QueuedRuntimeCommand × RuntimeControlPlane) → ControlRun
  | none => run
  | some (queued, queue) => { run with queue, delivered := run.delivered ++ [queued] }

/-- One action. -/
def step (run : ControlRun) : ControlAction → ControlRun
  | .push command =>
    let queued := { id := run.pushed, command, lane := command.lane }
    { run with queue := run.queue ++ [queued], pushed := run.pushed + 1 }
  | .update id command => { run with queue := run.queue.update id command }
  | .remove id =>
    match run.queue.remove id with
    | none => run
    | some (_, queue) => { run with queue }
  | .clear => { run with queue := [] }
  | .popNext => run.deliver run.queue.popNext
  | .popNextSafePoint => run.deliver run.queue.popNextSafePoint

/-- The queue after the actions. -/
abbrev after : ControlRun :=
  System.run step {} actions

/-- The commands that were delivered or wait. -/
abbrev ids (run : ControlRun) : List Nat :=
  (run.delivered ++ run.queue).map (·.id)

/-! ### What the actions ask for -/

/-- An action on the commands pushed; an update counts if it keeps the kind. -/
def note (commands : List RuntimeCommand) : ControlAction → List RuntimeCommand
  | .push command => commands ++ [command]
  | .update id command => commands.modify id fun old =>
    if matchesRuntimeCommandKind old command then command else old
  | _ => commands

/-- **The commands pushed**, in their order, as they were last updated. -/
abbrev commandsOf : List RuntimeCommand :=
  System.run note [] actions

/-- The action takes the command out of the queue without delivering it. -/
def Withdraws (action : ControlAction) (id : Nat) : Prop :=
  action = .remove id ∨ action = .clear

/-- **A command was withdrawn** while it waited. -/
def Withdrawn (id : Nat) : Prop :=
  ∃ before action later, actions = before ++ action :: later ∧ Withdraws action id ∧
    id ∈ (after before).queue.map (·.id)

/-! ### One action -/

/-- Commands that were pushed, each of them once, in their lanes and in the order of their
lanes. -/
structure Accounted (run : ControlRun) : Prop where
  nodup : run.ids.Nodup
  lt_pushed : ∀ queued ∈ run.delivered ++ run.queue, queued.id < run.pushed
  lanes : ∀ queued ∈ run.delivered ++ run.queue, queued.lane = queued.command.lane
  order : (run.delivered ++ run.queue).Pairwise fun x y => x.lane = y.lane → x.id < y.id

/-- The commands pushed are known, and what waits is what they are now. -/
structure Tells (commands : List RuntimeCommand) (run : ControlRun) : Prop where
  pushed : run.pushed = commands.length
  content : ∀ queued ∈ run.queue, commands[queued.id]? = some queued.command

variable {run : ControlRun} {front back rest : List QueuedRuntimeCommand}
  {commands : List RuntimeCommand}

theorem Tells.of_subset (h : Tells commands run) (hrest : rest ⊆ run.queue)
    (delivered : List QueuedRuntimeCommand) :
    Tells commands { run with queue := rest, delivered } :=
  ⟨h.pushed, fun queued hqueued => h.content queued (hrest hqueued)⟩

theorem length_note (commands : List RuntimeCommand) (action : ControlAction) :
    commands.length ≤ (note commands action).length ∧
      (note commands action).length ≤ commands.length + 1 := by
  cases action <;> simp [note]

theorem pushed_deliver (run : ControlRun) (popped) : (run.deliver popped).pushed = run.pushed := by
  cases popped <;> rfl

theorem Tells.pop (h : Tells commands run) :
    Tells commands (run.deliver (run.queue.takeFirst p)) := by
  cases hpop : run.queue.takeFirst p with
  | none => exact h
  | some popped =>
    obtain ⟨front, back, hqueue, hrest, -, -⟩ := takeFirst_eq_some hpop
    exact h.of_subset (by simp [hqueue, hrest]) _

section

variable (h : run.Accounted)

include h

theorem Accounted.push (command : RuntimeCommand) : (run.step (.push command)).Accounted := by
  obtain ⟨hnodup, hlt, hlanes, horder⟩ := h
  rw [ControlRun.step]
  refine ⟨?_, ?_, ?_, ?_⟩ <;> simp only [ids, ← append_assoc]
  · rw [map_append, map_singleton]
    refine nodup_append.mpr ⟨hnodup, pairwise_singleton _ _, ?_⟩
    rintro _ hold _ hnew rfl
    obtain ⟨queued, hqueued, heq⟩ := mem_map.mp hold
    exact (hlt queued hqueued).ne (heq.trans (mem_singleton.mp hnew))
  · exact forall_mem_append.mpr
      ⟨fun queued hqueued => (hlt queued hqueued).trans (Nat.lt_succ_self _), by simp⟩
  · exact forall_mem_append.mpr ⟨hlanes, by simp⟩
  · refine pairwise_append.mpr ⟨horder, pairwise_singleton _ _, fun x hx y hy _ => ?_⟩
    rw [mem_singleton.mp hy]
    exact hlt x hx

theorem Accounted.update (id : Nat) (command : RuntimeCommand) :
    (run.step (.update id command)).Accounted := by
  obtain ⟨hnodup, hlt, hlanes, horder⟩ := h
  rw [ControlRun.step, update_eq_map id command (hnodup.sublist (by simp))]
  refine ⟨?_, ?_, ?_, ?_⟩
  · simpa [ids, Function.comp_def] using hnodup
  · simpa [or_imp, forall_and] using hlt
  · simpa [or_imp, forall_and] using hlanes
  · simpa [pairwise_append, pairwise_map] using horder

/-- Commands leave the queue for good. -/
theorem Accounted.withdraw (hrest : rest <+ run.queue) :
    ({ run with queue := rest } : ControlRun).Accounted := by
  have hsub : run.delivered ++ rest <+ run.delivered ++ run.queue := hrest.append_left _
  exact ⟨h.nodup.sublist (hsub.map _), fun queued hq => h.lt_pushed queued (hsub.mem hq),
    fun queued hq => h.lanes queued (hsub.mem hq), h.order.sublist hsub⟩

/-- A command is only delivered past commands of the other lane. -/
theorem Accounted.deliver (hqueue : run.queue = front ++ queued :: back)
    (hfront : ∀ x ∈ front, x.lane ≠ queued.lane) :
    (run.deliver (some (queued, front ++ back))).Accounted ∧
      (run.deliver (some (queued, front ++ back))).ids ~ run.ids := by
  obtain ⟨hnodup, hlt, hlanes, horder⟩ := h
  have hperm : run.delivered ++ [queued] ++ (front ++ back) ~ run.delivered ++ run.queue := by
    rw [hqueue, append_assoc, singleton_append]
    exact perm_middle.symm.append_left _
  refine ⟨⟨(hperm.map _).nodup_iff.mpr hnodup, fun x hx => hlt x (hperm.subset hx),
    fun x hx => hlanes x (hperm.subset hx), ?_⟩, hperm.map _⟩
  rw [hqueue] at horder
  rw [ControlRun.deliver]
  simp only [pairwise_append, pairwise_cons] at horder ⊢
  grind

theorem Accounted.pop (hp : ∀ x y, p x = false → p y = true → x.lane ≠ y.lane) :
    (run.deliver (run.queue.takeFirst p)).Accounted ∧
      (run.deliver (run.queue.takeFirst p)).ids ~ run.ids := by
  cases hpop : run.queue.takeFirst p with
  | none => exact ⟨h, .refl _⟩
  | some popped =>
    obtain ⟨front, back, hqueue, hrest, hqueued, hfront⟩ := takeFirst_eq_some hpop
    rw [← Prod.eta popped, hrest]
    exact h.deliver hqueue fun x hx => hp x _ (hfront x hx) hqueued

/-- **A push adds the next identifier**, and a withdrawal takes out what it names. -/
theorem Accounted.step (action : ControlAction) :
    (run.step action).Accounted ∧ ∀ id, id ∈ (run.step action).ids ↔
      (id ∈ run.ids ∨ id = run.pushed ∧ run.pushed < (run.step action).pushed) ∧
        ¬ (Withdraws action id ∧ id ∈ run.queue.map (·.id)) := by
  -- the actions that neither push nor withdraw
  have hsame {run' : ControlRun} (hrun : run'.Accounted ∧ run'.ids ~ run.ids)
      (hpushed : run'.pushed = run.pushed) (hnot : ∀ id, ¬ Withdraws action id) :
      run'.Accounted ∧ ∀ id, id ∈ run'.ids ↔
        (id ∈ run.ids ∨ id = run.pushed ∧ run.pushed < run'.pushed) ∧
          ¬ (Withdraws action id ∧ id ∈ run.queue.map (·.id)) := by
    refine ⟨hrun.1, fun id => hrun.2.mem_iff.trans ?_⟩
    simp only [hpushed, hnot id, Nat.lt_irrefl, and_false, or_false, false_and,
      not_false_eq_true, and_true]
  have hnodup := h.nodup
  cases action with
  | push command => exact ⟨h.push command, by simp [ControlRun.step, Withdraws, ← or_assoc]⟩
  | update id command =>
    refine hsame ⟨h.update id command, ?_⟩ rfl (by simp [Withdraws])
    rw [ControlRun.step, update_eq_map id command (hnodup.sublist (by simp))]
    simp [Function.comp_def]
  | remove id =>
    rw [ControlRun.step]
    cases hremove : run.queue.remove id with
    | none =>
      have habsent : ∀ x ∈ run.queue, ¬ x.id = id := by
        simpa [remove, takeFirst] using hremove
      refine ⟨h, fun other => ?_⟩
      simp [Withdraws]
      grind
    | some found =>
      obtain ⟨queued, rest⟩ := found
      obtain ⟨front, back, hqueue, rfl, hid, -⟩ := takeFirst_eq_some hremove
      refine ⟨h.withdraw (hqueue ▸ (sublist_cons_self ..).append_left _), fun other => ?_⟩
      simp [Withdraws, hqueue] at hnodup hid ⊢
      grind
  | clear =>
    refine ⟨h.withdraw (nil_sublist _), fun id => ?_⟩
    simp [Withdraws, ControlRun.step, nodup_append] at hnodup ⊢
    grind
  | popNext => exact hsame (h.pop (by simp)) (pushed_deliver _ _) (by simp [Withdraws])
  | popNextSafePoint =>
    exact hsame (h.pop fun x y hx hy heq => by simp_all) (pushed_deliver _ _)
      (by simp [Withdraws])

/-- The action tells of the commands what it does to them. -/
theorem Accounted.tells (ht : Tells commands run) (action : ControlAction) :
    Tells (note commands action) (run.step action) := by
  cases action with
  | push command =>
    refine ⟨by simp [note, ControlRun.step, ht.pushed], forall_mem_append.mpr ⟨?_, ?_⟩⟩
    · intro queued hqueued
      rw [note, getElem?_append_left (ht.pushed ▸ h.lt_pushed queued (by simp [hqueued]))]
      exact ht.content queued hqueued
    · simp [note, ht.pushed]
  | update id command =>
    refine ⟨by simp [note, ControlRun.step, ht.pushed], ?_⟩
    rw [ControlRun.step, update_eq_map id command (h.nodup.sublist (by simp))]
    intro _ hnew
    obtain ⟨queued, hqueued, rfl⟩ := mem_map.mp hnew
    rw [note, id_updated, getElem?_modify, ht.content queued hqueued, updated]
    grind
  | remove id =>
    rw [ControlRun.step]
    split
    · exact ht
    next hremove =>
      obtain ⟨front, back, hqueue, rfl, -, -⟩ := takeFirst_eq_some hremove
      exact ht.of_subset (by simp [hqueue]) _
  | clear => exact ht.of_subset (nil_subset _) _
  | popNext => exact ht.pop
  | popNextSafePoint => exact ht.pop

end

/-! ### Runs -/

theorem accounted_after : (after actions).Accounted :=
  System.run_invariant (fun _ action h => (h.step action).1)
    ⟨.nil, by simp, by simp, .nil⟩ actions

/-- What waits after the actions is what they made of it. -/
theorem tells_after : Tells (commandsOf actions) (after actions) := by
  induction actions using reverseRecOn with
  | nil => exact ⟨rfl, by simp [after]⟩
  | append_singleton actions action ih =>
    simp only [commandsOf, after, System.run_append]
    exact (accounted_after actions).tells ih action

theorem withdrawn_concat (action : ControlAction) (id : Nat) : Withdrawn (actions ++ [action]) id ↔
      Withdrawn actions id ∨ Withdraws action id ∧ id ∈ (after actions).queue.map (·.id) := by
  constructor
  · rintro ⟨before, withdrawal, later, heq, hid⟩
    rcases eq_nil_or_concat later with rfl | ⟨later, last, rfl⟩
    · obtain ⟨rfl, ⟨⟩⟩ := append_inj' heq rfl
      exact .inr hid
    · rw [concat_eq_append, ← cons_append, ← append_assoc] at heq
      exact .inl ⟨before, withdrawal, later, (append_inj' heq rfl).1, hid⟩
  · rintro (⟨before, withdrawal, later, rfl, hid⟩ | hid)
    · exact ⟨before, withdrawal, later ++ [action], by simp, hid⟩
    · exact ⟨actions, action, [], rfl, hid⟩

/-- **What was pushed and not withdrawn** is delivered or waits. -/
theorem mem_ids_after (id : Nat) : (id ∈ (after actions).ids ↔
        id < (commandsOf actions).length ∧ ¬ Withdrawn actions id) ∧
      (Withdrawn actions id → id < (commandsOf actions).length) := by
  induction actions using reverseRecOn with
  | nil => simp [Withdrawn]
  | append_singleton actions action ih =>
    have h := accounted_after actions
    have hpushed := (tells_after actions).pushed
    have hpushed' := (tells_after (actions ++ [action])).pushed
    have hqueued : id ∈ (after actions).queue.map (·.id) → id < (after actions).pushed := by
      intro hid
      obtain ⟨queued, hqueued, rfl⟩ := mem_map.mp hid
      exact h.lt_pushed queued (by simp [hqueued])
    have hstep := (h.step action).2 id
    have hnext := length_note (commandsOf actions) action
    rw [withdrawn_concat]
    simp only [after, commandsOf, System.run_append, System.run_cons, System.run_nil] at *
    rw [hstep]
    grind

/-- A delivery takes what waits. -/
theorem mem_delivered_step (action : ControlAction)
    (h : queued ∈ (run.step action).delivered) : queued ∈ run.delivered ∨ queued ∈ run.queue := by
  have hpop {p} (h : queued ∈ (run.deliver (run.queue.takeFirst p)).delivered) :
      queued ∈ run.delivered ∨ queued ∈ run.queue := by
    cases hpop : run.queue.takeFirst p with
    | none => exact .inl (by rwa [hpop] at h)
    | some popped =>
      obtain ⟨front, back, hqueue, -, -, -⟩ := takeFirst_eq_some hpop
      rw [hpop] at h
      refine (mem_append.mp h).imp_right fun hnew => ?_
      rw [hqueue, mem_singleton.mp hnew]
      simp
  cases action with
  | push | update | clear => exact .inl h
  | remove id =>
    rw [ControlRun.step] at h
    split at h <;> exact .inl h
  | popNext | popNextSafePoint => exact hpop h

/-- Whatever is delivered was what the actions had made of it by then. -/
theorem delivered_after : ∀ queued ∈ (after actions).delivered, ∃ before, before <+: actions ∧
      (commandsOf before)[queued.id]? = some queued.command := by
  induction actions using reverseRecOn with
  | nil => simp [after]
  | append_singleton actions action ih =>
    intro queued hqueued
    simp only [after, System.run_append] at hqueued
    rcases mem_delivered_step action hqueued with hold | hwaits
    · obtain ⟨before, hbefore, hcommand⟩ := ih queued hold
      exact ⟨before, hbefore.trans ⟨[action], rfl⟩, hcommand⟩
    · exact ⟨actions, ⟨[action], rfl⟩, (tells_after actions).content queued hwaits⟩

/-- **The control queue.** A command is delivered or waits, once, if and only if it was pushed and
not withdrawn while it waited; it has its last update; commands of a kind are delivered in push
order, and only steers at a safe point. -/
theorem control_queue_delivers (actions : List ControlAction) :
    let run := after actions
    run.ids.Nodup ∧
      (∀ id, id ∈ run.ids ↔ id < (commandsOf actions).length ∧ ¬ Withdrawn actions id) ∧
      (∀ queued ∈ run.queue, (commandsOf actions)[queued.id]? = some queued.command) ∧
      (∀ queued ∈ run.delivered, ∃ before, before <+: actions ∧
        (commandsOf before)[queued.id]? = some queued.command) ∧
      run.delivered.Pairwise (fun x y => x.command.lane = y.command.lane → x.id < y.id) ∧
      ∀ queued rest, run.queue.popNextSafePoint = some (queued, rest) →
        queued.command.lane = .safePoint := by
  intro run
  have h : run.Accounted := accounted_after actions
  refine ⟨h.nodup, fun id => (mem_ids_after actions id).1, (tells_after actions).content,
    delivered_after actions, ?_, ?_⟩
  · refine (h.order.sublist (sublist_append_left _ _)).imp_of_mem ?_
    intro x y hx hy hlt heq
    exact hlt (by rw [h.lanes x (by simp [hx]), h.lanes y (by simp [hy]), heq])
  · intro queued rest hpop
    obtain ⟨front, back, hqueue, -, hsafe, -⟩ := takeFirst_eq_some hpop
    exact (h.lanes queued (by simp [hqueue])).symm.trans (eq_of_beq hsafe)

end ControlRun

end Nanoclaw
