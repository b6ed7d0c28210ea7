import Nanoclaw.Subagent.Cancellation
import Nanoclaw.Subagent.WriteLease

/-!
# The Leases of One Child

A child takes its leases when it is spawned or resumed, and they are released by whoever ends it:
the worker, a launch that failed, a call of `cancel`, or a call of `resume` that could not reopen
the child. None of these looks at the record again, and a release takes all leases of the child.

A resume is safe if nothing else is under way on the child when it starts (`Child.unoccupied`).
With cancellations that find the child at rest, a release then never meets an unfinished child.
-/

namespace Nanoclaw

open List Option Launch LaunchStage

/-! ### What a launch can still do -/

/-- The worker has finished the record and has yet to release the leases. -/
def WorkerPc.cleaning : WorkerPc → Bool
  | announcingEnd _ | releasing _ => true
  | _ => false

/-- The worker has released the leases. -/
def WorkerPc.past : WorkerPc → Bool
  | ending _ | gone _ => true
  | _ => false

/-- The worker touches neither the record nor the leases any more. -/
def Worker.over (worker : Worker) : Bool :=
  worker.pc.past || worker.aborted && !worker.polled

/-- The cancellation has released the leases. -/
def Cancel.done (cancel : Cancel) : Bool :=
  cancel.stage == .released || cancel.stage == .returned

namespace LaunchStage

variable {α : Type}

/-- The launch does not write the status of a finished child. -/
def silent : LaunchStage α → Bool
  | .blocked | .chosen | .attaching | .clearing | .over => true
  | _ => false

def isClearing : LaunchStage α → Bool
  | .clearing => true
  | _ => false

def isOver : LaunchStage α → Bool
  | .over => true
  | _ => false

/-- The launch has come as far as to spawn the worker. -/
def hasWorker : LaunchStage α → Bool
  | .attaching | .over => true
  | _ => false

end LaunchStage

variable {record : AgentRecord}

namespace Launch

variable {α : Type} (launch : Launch α)

/-- **Settled**: nothing of the launch touches the record or the leases any more. -/
def settled : Bool :=
  launch.stage.isOver && launch.worker.all Worker.over

/-- **Silent**: the launch does not write the status of a finished child. -/
def silent : Bool :=
  launch.stage.silent && launch.worker.all fun worker => worker.over || worker.pc.cleaning

/-- A release of the leases is still to come. -/
def releasing : Bool :=
  launch.stage.isClearing || launch.worker.any fun worker => worker.pc.cleaning && !worker.over

/-- There is a worker only once the launch has spawned it. -/
def placed : Bool :=
  launch.worker.isNone || launch.stage.hasWorker

variable {launch} {launch' : Launch α} {worker : Worker}

theorem silent_of_settled (h : launch.settled = true) : launch.silent = true := by
  obtain ⟨hstage, hworker⟩ := Bool.and_eq_true_iff.mp h
  refine Bool.and_eq_true_iff.mpr ⟨?_, ?_⟩
  · cases hs : launch.stage <;> simp_all [LaunchStage.isOver, LaunchStage.silent]
  · rw [Option.all_eq_true] at hworker ⊢
    intro worker hw
    rw [hworker worker hw, Bool.true_or]

theorem not_releasing_of_settled (h : launch.settled = true) : launch.releasing = false := by
  obtain ⟨hstage, hworker⟩ := Bool.and_eq_true_iff.mp h
  refine Bool.or_eq_false_iff.mpr ⟨?_, ?_⟩
  · cases hs : launch.stage <;> simp_all [isOver, isClearing]
  · cases hw : launch.worker with
    | none => rfl
    | some worker => simp_all

/-- A launch at rest is silent once its worker is aborted. -/
theorem Dead.silent (h : launch.Dead) : launch.silent = true := by
  refine Bool.and_eq_true_iff.mpr ⟨?_, ?_⟩
  · have hresting := h.resting
    cases hs : launch.stage <;> simp_all [LaunchStage.resting, LaunchStage.silent]
  · rw [Option.all_eq_true]
    intro worker hw
    rcases h.stopped worker hw with hgone | ⟨ha, hp⟩
    · cases hpc : worker.pc <;> simp_all [WorkerPc.isGone, Worker.over, WorkerPc.past]
    · simp [Worker.over, ha, hp]

theorem settled_abort (h : launch.settled = true) : launch.abort.settled = true := by
  obtain ⟨hstage, hworker⟩ := Bool.and_eq_true_iff.mp h
  refine Bool.and_eq_true_iff.mpr ⟨hstage, ?_⟩
  cases hw : launch.worker with
  | none => simp [abort, hw]
  | some worker =>
    simp only [abort, hw, all_some] at hworker ⊢
    rcases Bool.or_eq_true_iff.mp hworker with hpast | haborted
    · exact Bool.or_eq_true_iff.mpr (.inl hpast)
    · exact Bool.or_eq_true_iff.mpr (.inr (by simp_all))

/-- **The contract of a step of a launch**: a settled launch touches nothing; a silent one leaves a
final status alone; a step under an unfinished child finishes it or leaves no release to come; and
only a launch that is due releases the leases. -/
structure Contract (record : AgentRecord) (launch : Launch α) (progress : Progress α) : Prop where
  placed : launch.placed = true → progress.launch.placed = true
  settled : launch.settled = true → progress.launch.settled = true ∧
    progress.record.status = record.status
  silent : record.status.isTerminal = true → launch.silent = true →
    progress.launch.silent = true ∧ progress.record.status.isTerminal = true
  unfinished : record.status.isTerminal = false → launch.placed = true → launch.releasing = false →
      progress.record.status.isTerminal = false ∧ progress.launch.releasing = false ∨
        progress.record.status.isTerminal = true ∧ progress.launch.silent = true
  releases : progress.releases = true → launch.releasing = true

/-- A step that touches nothing that matters here. -/
theorem Contract.of_eq (hstage : launch'.stage = launch.stage)
    (hworker : launch'.worker = launch.worker) :
    Contract record launch { launch := launch', record } := by
  have hsettled : launch'.settled = launch.settled := by simp only [Launch.settled, hstage, hworker]
  have hsilent : launch'.silent = launch.silent := by simp only [Launch.silent, hstage, hworker]
  have hreleasing : launch'.releasing = launch.releasing := by
    simp only [releasing, hstage, hworker]
  have hplaced : launch'.placed = launch.placed := by simp only [Launch.placed, hstage, hworker]
  exact ⟨hplaced.trans, fun h => ⟨hsettled.trans h, rfl⟩, fun ht h => ⟨hsilent.trans h, ht⟩,
    fun ht _ h => .inl ⟨ht, hreleasing.trans h⟩, by simp⟩

section

variable {stage stage' : LaunchStage α}

/-- A step from one stage to another, without a worker. -/
theorem Contract.of_stage (hstage : launch.stage = stage) (hfrom : stage.hasWorker = false)
    (hto : stage'.isClearing = false)
    (hsilent : record.status.isTerminal = true → stage.silent = true → stage'.silent = true) :
    Contract record launch { launch := { launch with stage := stage' }, record } where
  placed h := by simp_all [Launch.placed]
  settled h := by cases stage <;> simp_all [Launch.settled, LaunchStage.isOver, hasWorker]
  silent ht h := by simp_all [Launch.silent]
  unfinished ht _ h := .inl ⟨ht, by simp_all [releasing]⟩
  releases h := by simp at h

/-- A step that ends the launch. Only one that was due to release the leases does. -/
theorem Contract.of_over {progress : Progress α} (hstage : launch.stage = stage)
    (hopen : stage.isOver = false) (hto : progress.launch.stage = .over)
    (hworker : progress.launch.worker = launch.worker)
    (hstatus : progress.record.status = record.status)
    (hreleases : progress.releases = true → stage.isClearing = true) :
    Contract record launch progress where
  placed _ := by simp [Launch.placed, hto, hasWorker]
  settled h := by simp [Launch.settled, hstage, hopen] at h
  silent ht h := ⟨by simp_all [Launch.silent, LaunchStage.silent], hstatus ▸ ht⟩
  unfinished ht _ h := .inl ⟨hstatus ▸ ht, by simp_all [releasing, isClearing]⟩
  releases h := by simp [releasing, hstage, hreleases h]

theorem contract_schedule (record : AgentRecord) (launch : Launch α)
    (dependency : Option AgentRecordSnapshot) :
    Contract record launch { launch := launch.schedule record dependency, record } := by
  unfold schedule
  cases hstage : launch.stage with
  | blocked =>
    dsimp only
    split
    · exact .of_stage hstage rfl rfl fun _ _ => rfl
    next ht => exact .of_stage hstage rfl rfl fun h => absurd h ht
  | gating rest pending failures =>
    cases rest with
    | nil =>
      dsimp only
      repeat' split
      all_goals exact .of_stage hstage rfl rfl nofun
    | cons =>
      dsimp only
      repeat' split
      all_goals exact .of_stage hstage rfl rfl nofun
  | chosen =>
    dsimp only
    split
    · exact .of_over hstage rfl rfl rfl rfl nofun
    next ht =>
      refine .of_stage hstage rfl ?_ fun h => absurd h ht
      unfold firstStage
      split <;> rfl
  | _ => exact .of_eq rfl rfl

/-- A launch that fails finishes the record, whatever the status was. -/
theorem contract_abandon {result : AgentResultEnvelope} (error : String)
    (hresult : result.status.isTerminal = true) (record : AgentRecord)
    (hstage : launch.stage = stage) (hfrom : stage.hasWorker = false)
    (hloud : stage.silent = false) :
    Contract record launch (launch.abandon result error record) := by
  have hover : stage.isOver = false := by
    cases stage <;> simp_all [LaunchStage.hasWorker, LaunchStage.isOver]
  unfold abandon
  simp only [AgentRecord.finish, hresult]
  exact {
    placed h := by simp_all [Launch.placed]
    settled h := by simp [Launch.settled, hstage, hover] at h
    silent _ h := by simp [Launch.silent, hstage, hloud] at h
    unfinished _ hplaced _ := by
      refine .inr ⟨hresult, ?_⟩
      simp_all [Launch.silent, Launch.placed, LaunchStage.silent]
    releases h := by simp at h }

theorem contract_advance (index : ℕ) (answer : Except String Unit) (claimedFiles : List String)
    (record : AgentRecord) (launch : Launch α) :
    Contract record launch (launch.advance index answer claimedFiles record) := by
  unfold advance
  cases hstage : launch.stage with
  | seeding => cases answer <;> exact .of_stage hstage rfl rfl nofun
  | building =>
    cases answer with
    | error error => exact .of_stage hstage rfl rfl nofun
    | ok =>
      exact {
        placed _ := rfl
        settled h := by simp [settled, hstage, isOver] at h
        silent _ h := by simp [Launch.silent, hstage, LaunchStage.silent] at h
        unfinished ht _ _ := .inl ⟨ht, rfl⟩
        releases h := by simp at h }
  | attaching => exact .of_over hstage rfl rfl rfl rfl nofun
  | failing error => exact contract_abandon error rfl record hstage rfl rfl
  | condemned failures =>
    exact contract_abandon _ (blockedResult_isTerminal _ _) record hstage rfl rfl
  | clearing => exact .of_over hstage rfl rfl rfl rfl fun _ => rfl
  | _ => exact .of_eq rfl rfl

end

/-- A step of the worker keeps what the contract says of the worker. -/
theorem Contract.of_worker {record' : AgentRecord} {worker' : Worker}
    (hworker : launch.worker = some worker) (hstage : launch'.stage = launch.stage)
    (hworker' : launch'.worker = some worker')
    (hover : worker.over = true → worker'.over = true ∧ record'.status = record.status)
    (hsilent : record.status.isTerminal = true → worker.pc.cleaning = true →
      (worker'.over || worker'.pc.cleaning) = true ∧ record'.status = record.status)
    (hunfinished : record.status.isTerminal = false → worker.over = false →
      worker.pc.cleaning = false → record'.status.isTerminal = false ∧ worker'.pc.cleaning = false ∨
          record'.status.isTerminal = true ∧ worker'.pc.cleaning = true) :
    Contract record launch { launch := launch', record := record' } where
  placed h := by simp_all [Launch.placed]
  settled h := by
    simp only [Launch.settled, hstage, hworker, hworker', Bool.and_eq_true] at h ⊢
    exact ⟨⟨h.1, (hover h.2).1⟩, (hover h.2).2⟩
  silent ht h := by
    simp only [Launch.silent, hstage, hworker, hworker', all_some, Bool.and_eq_true,
      Bool.or_eq_true] at h hsilent ⊢
    rcases h with ⟨hs, ho | hc⟩
    · exact ⟨⟨hs, .inl (hover ho).1⟩, by rw [(hover ho).2]; exact ht⟩
    · exact ⟨⟨hs, (hsilent ht hc).1⟩, by rw [(hsilent ht hc).2]; exact ht⟩
  unfinished ht hplaced h := by
    simp only [Launch.releasing, Launch.silent, hstage, hworker, hworker', all_some,
      Bool.or_eq_false_iff, Bool.and_eq_true, Bool.or_eq_true] at h ⊢
    obtain ⟨hclear, hclean⟩ := h
    cases ho : worker.over with
    | true =>
      obtain ⟨ho', hsame⟩ := hover ho
      exact .inl ⟨by rw [hsame]; exact ht, hclear, by simp [ho']⟩
    | false =>
      have hc : worker.pc.cleaning = false := by simpa [ho] using hclean
      rcases hunfinished ht ho hc with ⟨ht', hc'⟩ | ⟨ht', hc'⟩
      · exact .inl ⟨ht', hclear, by simp [hc']⟩
      · refine .inr ⟨ht', ?_, .inr hc'⟩
        simp only [Launch.placed] at hplaced
        cases hs : launch.stage <;> simp_all [LaunchStage.hasWorker, LaunchStage.silent]
  releases h := by simp at h

section

variable (record) (launch)

theorem contract_poll : Contract record launch { launch := launch.poll, record } := by
  unfold poll
  split
  next worker hworker =>
    split
    · exact .of_eq rfl rfl
    next hidle =>
      split
      · exact .of_worker hworker rfl rfl (fun _ => ⟨rfl, rfl⟩) (fun _ _ => ⟨rfl, rfl⟩)
          fun ht _ _ => .inl ⟨ht, rfl⟩
      next haborted =>
        refine .of_worker hworker rfl rfl (fun h => ⟨?_, rfl⟩) (fun _ h => ⟨?_, rfl⟩)
          fun ht _ h => .inl ⟨ht, h⟩
        · simp_all [Worker.over]
        · simp [h]
  · exact .of_eq rfl rfl

theorem contract_suspend : Contract record launch { launch := launch.suspend, record } := by
  unfold suspend
  split
  next worker hworker =>
    split
    next hs =>
      refine .of_worker hworker rfl rfl (fun h => ⟨?_, rfl⟩) (fun _ h => ⟨?_, rfl⟩)
        fun ht _ h => .inl ⟨ht, h⟩
      · simp_all [Worker.over]
      · simp [h]
    · exact .of_eq rfl rfl
  · exact .of_eq rfl rfl

theorem contract_sendInput (message : Message) :
    Contract record launch { launch := launch.sendInput message, record } := by
  unfold sendInput
  split
  · exact .of_eq rfl rfl
  · exact .of_eq rfl rfl

end

theorem WorkerEnd.result_isTerminal (how : WorkerEnd) (claimedFiles : List String) :
    (how.result claimedFiles).1.status.isTerminal = true := by
  cases how with
  | success answer => exact normalizeChildResult_isTerminal answer claimedFiles
  | cancel reason => rfl
  | fail error => rfl

theorem contract_work (steer : Option String) (hasSender : Bool)
    (answer : Except String ChildAnswer) (claimedFiles : List String) (record : AgentRecord)
    (hworker : launch.worker = some worker) (hpolled : worker.polled = true) :
    Contract record launch (launch.work steer hasSender answer claimedFiles record worker) := by
  -- A polled worker is over only once it is past the release.
  have hover : worker.over = worker.pc.past := by simp [Worker.over, hpolled]
  have hmove {launch' : Launch α} {worker' : Worker} {record' : AgentRecord}
      (hfrom : worker.pc.past = false ∧ worker.pc.cleaning = false)
      (hstage : launch'.stage = launch.stage) (hworker' : launch'.worker = some worker')
      (hto : worker'.pc.cleaning = false)
      (hstatus : record.status.isTerminal = false → record'.status.isTerminal = false) :
      Contract record launch { launch := launch', record := record' } :=
    .of_worker hworker hstage hworker' (fun h => by rw [hover, hfrom.1] at h; cases h)
      (fun _ h => by rw [hfrom.2] at h; cases h) fun ht _ _ => .inl ⟨hstatus ht, hto⟩
  unfold work
  cases hpc : worker.pc with
  | starting =>
    refine hmove (by rw [hpc]; exact ⟨rfl, rfl⟩) rfl rfl rfl fun _ => ?_
    cases launch.startMode <;> rfl
  | promoting => exact hmove (by rw [hpc]; exact ⟨rfl, rfl⟩) rfl rfl rfl fun _ => rfl
  | finishing how =>
    simp only [AgentRecord.finish, WorkerEnd.result_isTerminal]
    refine .of_worker hworker rfl rfl (fun h => ?_) (fun _ h => ?_) fun _ _ _ => .inr ⟨?_, rfl⟩
    · simp [hover, hpc, WorkerPc.past] at h
    · simp [hpc, WorkerPc.cleaning] at h
    · exact WorkerEnd.result_isTerminal how claimedFiles
  | announcingEnd how =>
    refine .of_worker hworker rfl rfl (fun h => ?_) (fun _ _ => ⟨?_, rfl⟩) fun _ _ h => ?_
    · simp [hover, hpc, WorkerPc.past] at h
    · simp [WorkerPc.cleaning]
    · simp [hpc, WorkerPc.cleaning] at h
  | releasing how =>
    have hsame : Contract record launch
        { launch := launch.goto (.ending how) worker, record } := by
      refine .of_worker hworker rfl rfl (fun _ => ⟨rfl, rfl⟩) (fun _ _ => ⟨rfl, rfl⟩)
        fun _ _ h => ?_
      simp [hpc, WorkerPc.cleaning] at h
    exact { hsame with
      releases _ := by simp [releasing, hworker, hover, hpc, WorkerPc.cleaning,
        WorkerPc.past] }
  | ending how =>
    exact .of_worker hworker rfl rfl (fun _ => ⟨rfl, rfl⟩) (fun _ _ => ⟨rfl, rfl⟩)
      fun ht _ _ => .inl ⟨ht, rfl⟩
  | gone how => exact .of_eq rfl rfl
  | awaiting =>
    dsimp only
    repeat' split
    all_goals first
      | exact .of_eq rfl rfl
      | exact hmove (by rw [hpc]; exact ⟨rfl, rfl⟩) rfl rfl rfl id
  | _ =>
    dsimp only
    repeat' split
    all_goals exact hmove (by rw [hpc]; exact ⟨rfl, rfl⟩) rfl rfl rfl id

end Launch

/-! ### One child -/

namespace Child

variable {α : Type}

/-- Nothing is under way on the child: no launch, no cancellation and no resume. -/
def unoccupied (child : Child α) : Bool :=
  child.launches.all Launch.settled && child.cancels.all Cancel.done &&
    child.resumes.all fun resume => resume.stage == .returned

/-- **The condition on one step**: cancellations find the child at rest, and resumes unoccupied. -/
def orderly (child : Child α) (action : Action) : Bool :=
  child.atRest action &&
    match action with
    | .resume _ => !child.record.status.isTerminal || child.unoccupied
    | _ => true

/-- **The invariant of one child** that holds leases on the paths `claimed`. -/
structure Guarded (claimed : List PathBuf) (child : Child α) : Prop where
  placed : ∀ launch ∈ child.launches, launch.placed = true
  /-- At most one launch is not settled. -/
  single : ∀ (i j : ℕ) (launch launch' : Launch α), child.launches[i]? = some launch →
    child.launches[j]? = some launch' → launch.settled = false → launch'.settled = false → i = j
  silent : child.record.status.isTerminal = true → ∀ launch ∈ child.launches, launch.silent = true
  held : child.record.status.isTerminal = false →
    ∀ path ∈ child.writeSet, normalizePath path ∈ claimed
  /-- No release is to come as long as the child is unfinished. -/
  unreleased : child.record.status.isTerminal = false →
    (∀ launch ∈ child.launches, launch.releasing = false) ∧
      ∀ cancel ∈ child.cancels, cancel.stage ≠ .marked
  /-- A resume that is running has the child for itself. -/
  resuming : ∀ (i : ℕ) (resume : Resume), child.resumes[i]? = some resume →
    resume.stage ≠ .returned → child.record.status.isTerminal = true ∧
      (∀ launch ∈ child.launches, launch.settled = true) ∧
      (∀ cancel ∈ child.cancels, cancel.done = true) ∧
      ∀ (j : ℕ) (resume' : Resume), child.resumes[j]? = some resume' →
        resume'.stage ≠ .returned → j = i
  granted : ∀ resume ∈ child.resumes, resume.stage = .loading ∨ resume.stage = .reopening →
    ∀ path ∈ resume.files, normalizePath path ∈ claimed

variable {child : Child α} {claimed claimed' : List PathBuf}

theorem Guarded.mono
    (h : child.Guarded claimed) (hsub : claimed ⊆ claimed') : child.Guarded claimed' :=
  { h with
    held ht path hp := hsub (h.held ht path hp)
    granted resume hr hs path hp := hsub (h.granted resume hr hs path hp) }

variable {resume : Resume}

section

variable (h : child.Guarded claimed)

include h

variable {i index : ℕ}

/-- No resume is running on an unfinished child. -/
theorem Guarded.returned (ht : child.record.status.isTerminal = false)
    (hr : child.resumes[i]? = some resume) : resume.stage = .returned := by
  by_contra hs
  rw [(h.resuming i resume hr hs).1] at ht
  cases ht

/-- With no resume running, the leases of a finished child may be released. -/
theorem Guarded.release (ht : child.record.status.isTerminal = true)
    (hr : ∀ resume ∈ child.resumes, resume.stage ≠ .loading ∧ resume.stage ≠ .reopening) :
    child.Guarded [] :=
  { h with
    held hf := nomatch ht.symm.trans hf
    granted resume hmem hs := by
      rcases hs with hs | hs
      · exact absurd hs (hr resume hmem).1
      · exact absurd hs (hr resume hmem).2 }

/-- What was settled stays settled, so there is no second launch that is not. -/
theorem Guarded.single_of {launches : List (Launch α)}
    (hkept : ∀ (i : ℕ) (l : Launch α), launches[i]? = some l →
      ∃ old, child.launches[i]? = some old ∧ (old.settled = true → l.settled = true))
    {i j : ℕ} {l l' : Launch α} (hi : launches[i]? = some l) (hj : launches[j]? = some l')
    (hs : l.settled = false) (hs' : l'.settled = false) : i = j := by
  obtain ⟨old, hold, himp⟩ := hkept i l hi
  obtain ⟨old', hold', himp'⟩ := hkept j l' hj
  exact h.single i j old old' hold hold' (by simp_all) (by simp_all)

/-- **A step of a launch keeps the invariant.** -/
theorem Guarded.settle {launch : Launch α} (hl : child.launches[index]? = some launch)
    {progress : Progress α} (hc : Launch.Contract child.record launch progress) :
    (child.settle index progress).1.Guarded (if progress.releases then [] else claimed) := by
  have hmem : launch ∈ child.launches := mem_of_getElem? hl
  have hall {P : Launch α → Prop} (hkept : ∀ l ∈ child.launches, P l) (hnew : P progress.launch) :
      ∀ l ∈ child.launches.set index progress.launch, P l := fun l hl =>
    (mem_or_eq_of_mem_set hl).elim (hkept l) fun heq => heq ▸ hnew
  have hold : ∀ (i : ℕ) (l : Launch α),
      (child.launches.set index progress.launch)[i]? = some l →
        ∃ old, child.launches[i]? = some old ∧ (old.settled = true → l.settled = true) := by
    intro i l hi
    rcases getElem?_set_cases hi with ⟨rfl, rfl⟩ | ⟨-, hkept⟩
    · exact ⟨launch, hl, fun hs => (hc.settled hs).1⟩
    · exact ⟨l, hkept, id⟩
  have hplaced : ∀ l ∈ child.launches.set index progress.launch, l.placed = true :=
    hall h.placed (hc.placed (h.placed launch hmem))
  cases ht : child.record.status.isTerminal with
  | true =>
    obtain ⟨hsilent, ht'⟩ := hc.silent ht (h.silent ht launch hmem)
    have hkept : child.Guarded (if progress.releases then [] else claimed) := by
      split
      next hreleases =>
        refine h.release ht fun resume hr => ?_
        obtain ⟨i, hi⟩ := getElem?_of_mem hr
        have hreturned : resume.stage = .returned := by
          by_contra hs
          have hsettled := (h.resuming i resume hi hs).2.1 launch hmem
          cases (hc.releases hreleases).symm.trans (not_releasing_of_settled hsettled)
        simp [hreturned]
      · exact h
    exact {
      placed := hplaced
      single _ _ _ _ := h.single_of hold
      silent _ := hall (h.silent ht) hsilent
      held hf := nomatch ht'.symm.trans hf
      unreleased hf := nomatch ht'.symm.trans hf
      resuming i resume hr hs := by
        obtain ⟨-, hsettled, hcancels, honly⟩ := h.resuming i resume hr hs
        exact ⟨ht', hall hsettled (hc.settled (hsettled launch hmem)).1, hcancels, honly⟩
      granted := hkept.granted }
  | false =>
    obtain ⟨hreleasing, hcancels⟩ := h.unreleased ht
    have hkeeps : progress.releases = false := by
      by_contra hne
      have := hc.releases (by simpa using hne)
      rw [hreleasing launch hmem] at this
      cases this
    rw [hkeeps]
    rcases hc.unfinished ht (h.placed launch hmem) (hreleasing launch hmem) with
      ⟨ht', hr'⟩ | ⟨ht', hs'⟩
    · exact {
        placed := hplaced
        single _ _ _ _ := h.single_of hold
        silent hf := nomatch hf.symm.trans ht'
        held _ := h.held ht
        unreleased _ := ⟨hall hreleasing hr', hcancels⟩
        resuming i resume hr hs := absurd (h.returned ht hr) hs
        granted := h.granted }
    · -- The launch that finished the child is not settled, so all others are.
      have hactive : launch.settled = false := by
        by_contra hne
        rw [(hc.settled (by simpa using hne)).2, ht] at ht'
        cases ht'
      exact {
        placed := hplaced
        single _ _ _ _ := h.single_of hold
        silent _ l hmem' := by
          obtain ⟨i, hi⟩ := getElem?_of_mem hmem'
          rcases getElem?_set_cases hi with ⟨-, rfl⟩ | ⟨hne, hkept⟩
          · exact hs'
          · refine silent_of_settled ?_
            by_contra hs
            exact hne (h.single i index l launch hkept hl (by simpa using hs) hactive)
        held hf := nomatch ht'.symm.trans hf
        unreleased hf := nomatch ht'.symm.trans hf
        resuming i resume hr hs := absurd (h.returned ht hr) hs
        granted := h.granted }

/-- A step that touches one launch and nothing else. -/
theorem Guarded.setLaunch {launch launch' : Launch α} (hl : child.launches[index]? = some launch)
    (hc : Launch.Contract child.record launch { launch := launch', record := child.record }) :
    (child.setLaunch index launch').Guarded claimed :=
  h.settle hl hc

theorem Guarded.advanceSend (call : ℕ) : (child.advanceSend call).Guarded claimed := by
  unfold Child.advanceSend
  cases child.sends[call]? with
  | none => exact h
  | some send =>
    obtain ⟨message, stage⟩ := send
    cases stage with
    | checked => exact { h with }
    | returned => exact h
    | addressed index =>
      dsimp only
      split
      next launch hl =>
        have hsent := h.setLaunch hl (contract_sendInput _ launch message)
        exact { hsent with }
      · exact { h with }

end

variable {call : ℕ} {files : List PathBuf} {mark : Option Mark} {action : Action}

/-- A step of a cancellation that changes neither the record nor the launches. -/
theorem Guarded.setCancel (h : child.Guarded claimed) {cancel : Cancel}
    (hc : child.cancels[call]? = some cancel) (stage : CancelStage)
    (hmarked : child.record.status.isTerminal = false → stage ≠ .marked)
    (hdone : cancel.done = true → { cancel with stage : Cancel }.done = true) :
    { child with cancels := child.cancels.set call { cancel with stage } }.Guarded claimed :=
  { h with
    unreleased ht := by
      obtain ⟨hlaunches, hcancels⟩ := h.unreleased ht
      refine ⟨hlaunches, fun c hmem => ?_⟩
      rcases mem_or_eq_of_mem_set hmem with hmem | rfl
      · exact hcancels c hmem
      · exact hmarked ht
    resuming i resume hr hs := by
      obtain ⟨ht, hlaunches, hcancels, honly⟩ := h.resuming i resume hr hs
      refine ⟨ht, hlaunches, fun c hmem => ?_, honly⟩
      rcases mem_or_eq_of_mem_set hmem with hmem | rfl
      · exact hcancels c hmem
      · exact hdone (hcancels cancel (mem_of_getElem? hc)) }

/-- **A cancellation of an unfinished child at rest** leaves all its launches silent. -/
theorem Guarded.cancelled (h : child.Guarded claimed) (ht : child.record.status.isTerminal = false)
    {launches : List (Launch α)} {cancels : List Cancel} (hstatus : record.status = .cancelled)
    (hlaunches : ∀ (index : ℕ) (launch : Launch α), launches[index]? = some launch → launch.Dead ∧
      ∃ old, child.launches[index]? = some old ∧ (launch = old.abort ∨ launch = old)) :
    { child with cancels, record, launches, mark }.Guarded claimed := by
  have hterminal : record.status.isTerminal = true := by rw [hstatus]; rfl
  exact {
    placed l hmem := by
      obtain ⟨i, hi⟩ := getElem?_of_mem hmem
      obtain ⟨-, old, ho, rfl | rfl⟩ := hlaunches i l hi
      · simpa [Launch.placed, Launch.abort] using h.placed old (mem_of_getElem? ho)
      · exact h.placed l (mem_of_getElem? ho)
    single _ _ _ _ := h.single_of fun i l hi => by
      obtain ⟨-, old, ho, rfl | rfl⟩ := hlaunches i l hi
      · exact ⟨old, ho, settled_abort⟩
      · exact ⟨l, ho, id⟩
    silent _ l hmem := by
      obtain ⟨i, hi⟩ := getElem?_of_mem hmem
      exact (hlaunches i l hi).1.silent
    held hf := nomatch hterminal.symm.trans hf
    unreleased hf := nomatch hterminal.symm.trans hf
    resuming i resume hr hs := absurd (h.returned ht hr) hs
    granted resume hmem hs := by
      obtain ⟨i, hi⟩ := getElem?_of_mem hmem
      simp [h.returned ht hi] at hs }

/-- The paths of a child after a lease call, with the answer to a claim. -/
def leasesAfter (claimed : List PathBuf) (granted : Bool) : Option LeaseCall → List PathBuf
  | none => claimed
  | some .release => []
  | some (.claim files) => if granted then claimed ++ files.map normalizePath else claimed

theorem leasesAfter_settle (claimed : List PathBuf) (granted : Bool) (index : ℕ)
    (progress : Progress α) (child : Child α) :
    leasesAfter claimed granted (child.settle index progress).2 =
      if progress.releases then [] else claimed := by
  unfold Child.settle
  cases progress.releases <;> rfl

section

variable (h : child.Guarded claimed)

include h

theorem Guarded.advanceCancel {claimedFiles : List String}
    (hrest : child.atRest (.advanceCancel call claimedFiles) = true) (granted : Bool) :
    (child.advanceCancel call claimedFiles).1.Guarded
      (leasesAfter claimed granted (child.advanceCancel call claimedFiles).2) := by
  cases hc : child.cancels[call]? with
  | none =>
    simp only [Child.advanceCancel, hc]
    exact h
  | some cancel =>
    have hmem : cancel ∈ child.cancels := mem_of_getElem? hc
    obtain ⟨reason, stage⟩ := cancel
    cases stage with
    | checked =>
      simp only [Child.advanceCancel, hc]
      exact h.setCancel hc _ (by simp) (by rintro ⟨⟩)
    | read files =>
      cases ht : child.record.status.isTerminal with
      | true =>
        simp only [Child.advanceCancel, hc, AgentRecord.cancel, ht]
        exact h.setCancel hc _ (by simp [ht]) (by rintro ⟨⟩)
      | false =>
        obtain ⟨record, launches, heq, hstatus, -, hlaunches⟩ :=
          advanceCancel_read hrest hc ht
        rw [heq]
        exact h.cancelled ht hstatus hlaunches
    | marked =>
      simp only [Child.advanceCancel, hc]
      have ht : child.record.status.isTerminal = true := by
        by_contra hf
        exact (h.unreleased (by simpa using hf)).2 _ hmem rfl
      refine (h.setCancel hc .released (by simp) (by rintro ⟨⟩)).release ht fun resume hr => ?_
      obtain ⟨i, hi⟩ := getElem?_of_mem hr
      have hreturned : resume.stage = .returned := by
        by_contra hs
        cases (h.resuming i resume hi hs).2.2.1 _ hmem
      simp [hreturned]
    | released =>
      simp only [Child.advanceCancel, hc]
      have hset := h.setCancel hc .returned (by simp) fun _ => rfl
      exact { hset with }
    | returned =>
      simp only [Child.advanceCancel, hc]
      exact h

section

variable (hr : child.resumes[call]? = some resume) (hrunning : resume.stage ≠ .returned)

include hr hrunning

/-- The only resume that can be running after a step of a running resume. -/
theorem Guarded.running_set {stage : ResumeStage} {i : ℕ} {r : Resume}
    (hi : (child.resumes.set call { resume with stage })[i]? = some r) (hs : r.stage ≠ .returned) :
    i = call ∧ r = { resume with stage } := by
  refine (getElem?_set_cases hi).resolve_right fun ⟨hne, hi⟩ => hne ?_
  exact (h.resuming call resume hr hrunning).2.2.2 i r hi hs

/-- A step of a resume that has the child for itself. -/
theorem Guarded.setResume (stage : ResumeStage) (hgranted : stage = .loading ∨ stage = .reopening →
      ∀ path ∈ resume.files, normalizePath path ∈ claimed') :
    { child with resumes := child.resumes.set call { resume with stage } }.Guarded claimed' := by
  obtain ⟨ht, hsettled, hcancels, -⟩ := h.resuming call resume hr hrunning
  exact {
    placed := h.placed
    single := h.single
    silent := h.silent
    held hf := nomatch ht.symm.trans hf
    unreleased := h.unreleased
    resuming i r hi hs := by
      obtain ⟨rfl, -⟩ := h.running_set hr hrunning hi hs
      exact ⟨ht, hsettled, hcancels, fun j r' hj hs' => (h.running_set hr hrunning hj hs').1⟩
    granted r hmem hs := by
      obtain ⟨i, hi⟩ := getElem?_of_mem hmem
      obtain ⟨-, rfl⟩ := h.running_set hr hrunning hi (by rcases hs with hs | hs <;> simp [hs])
      exact hgranted hs }

end

/-- **A child that is unoccupied can be opened again** once the write set is claimed. -/
theorem Guarded.reopened (hsettled : ∀ launch ∈ child.launches, launch.settled = true)
    (hcancels : ∀ cancel ∈ child.cancels, cancel.done = true)
    (hresumes : ∀ resume ∈ child.resumes, resume.stage = .returned)
    (hstatus : record.status = .queued) (hfiles : ∀ path ∈ files, normalizePath path ∈ claimed) :
    { child with
      record
      writeSet := files
      launches := child.launches ++ [resumedLaunch]
      mark }.Guarded claimed := by
  have hlast : ∀ (i : ℕ) (l : Launch α), (child.launches ++ [resumedLaunch])[i]? = some l →
      l.settled = false → i = child.launches.length := by
    intro i l hi hs
    rcases getElem?_snoc_eq_some.mp hi with hi | ⟨hi, -⟩
    · cases (hsettled l (mem_of_getElem? hi)).symm.trans hs
    · exact hi
  exact {
    placed := forall_mem_append.mpr ⟨h.placed, forall_mem_singleton.mpr rfl⟩
    single i j l l' hi hj hs hs' := (hlast i l hi hs).trans (hlast j l' hj hs').symm
    silent ht := by
      rw [hstatus] at ht
      cases ht
    held _ := hfiles
    unreleased _ := by
      refine ⟨forall_mem_append.mpr ⟨fun l hmem => not_releasing_of_settled (hsettled l hmem),
        forall_mem_singleton.mpr rfl⟩, fun cancel hmem hs => ?_⟩
      simpa [Cancel.done, hs] using hcancels cancel hmem
    resuming i resume hr hs := absurd (hresumes resume (mem_of_getElem? hr)) hs
    granted resume hmem hs := by simp [hresumes resume hmem] at hs }

theorem Guarded.advanceResume (call : ℕ) (answer : Bool) :
    (child.advanceResume call answer).1.Guarded
      (leasesAfter claimed answer (child.advanceResume call answer).2) := by
  unfold Child.advanceResume
  cases hr : child.resumes[call]? with
  | none => exact h
  | some resume =>
    obtain ⟨files, stage⟩ := resume
    cases stage with
    | checked =>
      refine h.setResume hr nofun _ fun hs path hp => ?_
      cases answer with
      | false => simp at hs
      | true => exact mem_append_right _ (mem_map_of_mem hp)
    | loading => exact h.setResume hr nofun _ fun _ => h.granted _ (mem_of_getElem? hr) (.inl rfl)
    | reopening =>
      obtain ⟨ht, hsettled, hcancels, honly⟩ := h.resuming call _ hr nofun
      have hfiles := h.granted _ (mem_of_getElem? hr) (.inr rfl)
      have hset : Guarded claimed _ := h.setResume hr nofun .returned nofun
      simp only [AgentRecord.reopen, ht]
      refine hset.reopened hsettled hcancels (fun r hmem => ?_) rfl hfiles
      by_contra hs
      obtain ⟨i, hi⟩ := getElem?_of_mem hmem
      obtain ⟨-, rfl⟩ := h.running_set hr nofun hi hs
      exact hs rfl
    | abandoning => exact h.setResume hr nofun _ nofun
    | returned => exact h

theorem Guarded.newCancel (ht : child.record.status.isTerminal = false) (reason : Option String) :
    { child with cancels := child.cancels ++ [Cancel.mk reason .checked] }.Guarded claimed :=
  { h with
    unreleased _ := by
      obtain ⟨hlaunches, hcancels⟩ := h.unreleased ht
      exact ⟨hlaunches, forall_mem_append.mpr ⟨hcancels, forall_mem_singleton.mpr nofun⟩⟩
    resuming i resume hr hs := absurd (h.returned ht hr) hs }

/-- A resume that starts on an unoccupied child has it for itself. -/
theorem Guarded.newResume (ht : child.record.status.isTerminal = true)
    (hfree : child.unoccupied = true) (files : List PathBuf) :
    { child with resumes := child.resumes ++ [Resume.mk files .checked] }.Guarded claimed := by
  simp only [unoccupied, Bool.and_eq_true, List.all_eq_true, beq_iff_eq] at hfree
  obtain ⟨⟨hsettled, hcancels⟩, hresumes⟩ := hfree
  have hlast : ∀ (i : ℕ) (r : Resume), (child.resumes ++ [⟨files, .checked⟩])[i]? = some r →
      r.stage ≠ .returned → i = child.resumes.length ∧ r = ⟨files, .checked⟩ := by
    intro i r hi hs
    obtain ⟨hlength, heq⟩ := (getElem?_snoc_eq_some.mp hi).resolve_left fun hi =>
      hs (hresumes r (mem_of_getElem? hi))
    exact ⟨hlength, heq.symm⟩
  exact { h with
    resuming i r hi hs := by
      obtain ⟨rfl, -⟩ := hlast i r hi hs
      exact ⟨ht, hsettled, hcancels, fun j r' hj hs' => (hlast j r' hj hs').1⟩
    granted r hmem hs := by
      obtain ⟨i, hi⟩ := getElem?_of_mem hmem
      obtain ⟨-, rfl⟩ := hlast i r hi (by rcases hs with hs | hs <;> simp [hs])
      simp at hs }

end

/-- The answer to a claim. -/
def Action.granted : Action → Bool
  | .advanceResume _ answer => answer
  | _ => false

/-- **Every step of a child that meets the condition keeps the invariant.** -/
theorem Guarded.step (h : child.Guarded claimed) (hC : child.orderly action = true) :
    (child.step action).1.Guarded (leasesAfter claimed action.granted (child.step action).2) := by
  obtain ⟨hrest, hresume⟩ := Bool.and_eq_true_iff.mp hC
  cases action with
  | schedule index dependency =>
    rw [Child.step]
    split
    next launch hl => exact h.setLaunch hl (contract_schedule _ launch dependency)
    · exact h
  | launch index answer claimedFiles =>
    rw [Child.step]
    split
    next launch hl =>
      rw [leasesAfter_settle]
      exact h.settle hl (contract_advance index answer claimedFiles _ launch)
    · exact h
  | poll index =>
    rw [Child.step]
    split
    next launch hl => exact h.setLaunch hl (contract_poll _ launch)
    · exact h
  | suspend index =>
    rw [Child.step]
    split
    next launch hl => exact h.setLaunch hl (contract_suspend _ launch)
    · exact h
  | work index answer claimedFiles =>
    rw [Child.step]
    split
    next launch hl =>
      split
      next worker hworker =>
        split
        next hpolled =>
          rw [leasesAfter_settle]
          exact h.settle hl (contract_work _ _ answer claimedFiles _ hworker hpolled)
        · exact h
      · exact h
    · exact h
  | send message =>
    rw [Child.step]
    split
    · exact h
    · exact { h with }
  | advanceSend call => exact h.advanceSend call
  | cancel reason =>
    rw [Child.step]
    split
    · exact h
    next ht => exact h.newCancel (by simpa using ht) reason
  | advanceCancel call claimedFiles => exact h.advanceCancel hrest _
  | resume files =>
    rw [Child.step]
    split
    next ht =>
      have hfree : child.unoccupied = true := by simpa [ht] using hresume
      exact h.newResume ht hfree files
    · exact h
  | advanceResume call answer => exact h.advanceResume call answer

theorem guarded_spawned {writeSet : List PathBuf}
    (hheld : ∀ path ∈ writeSet, normalizePath path ∈ claimed) (taskId : String)
    (steer : Option String) (dependencies : List α) (persistSessionSeed : Bool)
    (message : Message) :
    (spawned taskId steer writeSet dependencies persistSessionSeed message).Guarded claimed where
  placed := forall_mem_singleton.mpr rfl
  single i j launch launch' hi hj _ _ := by
    have hlt := (List.getElem?_eq_some_iff.mp hi).1
    have hlt' := (List.getElem?_eq_some_iff.mp hj).1
    simp only [spawned, length_singleton] at hlt hlt'
    omega
  silent ht := nomatch ht
  held _ := hheld
  unreleased _ := by
    refine ⟨forall_mem_singleton.mpr ?_, forall_mem_nil _⟩
    cases dependencies.isEmpty <;> cases persistSessionSeed <;>
      simp [releasing, firstStage, isClearing]
  resuming i resume hr := by simp [spawned] at hr
  granted := nofun

theorem step_eq_claim (h : (child.step action).2 = some (.claim files)) :
    ∃ call answer, action = .advanceResume call answer ∧
      child.resumes[call]? = some ⟨files, .checked⟩ := by
  have hsettle (index : ℕ) (progress : Progress α) :
      (child.settle index progress).2 ≠ some (.claim files) := by
    unfold Child.settle
    cases progress.releases <;> simp
  cases action with
  | advanceResume call answer =>
    refine ⟨call, answer, rfl, ?_⟩
    simp only [Child.step, Child.advanceResume] at h
    cases hr : child.resumes[call]? with
    | none => simp [hr] at h
    | some resume =>
      obtain ⟨files', stage⟩ := resume
      cases stage with
      | reopening =>
        simp only [hr] at h
        split at h <;> simp at h
      | _ => simp_all
  | launch index answer claimedFiles =>
    simp only [Child.step] at h
    split at h
    · exact absurd h (hsettle _ _)
    · simp at h
  | work index answer claimedFiles =>
    simp only [Child.step] at h
    repeat' split at h
    all_goals first
      | exact absurd h (hsettle _ _)
      | simp at h
  | advanceCancel call claimedFiles =>
    simp only [Child.step, Child.advanceCancel] at h
    repeat' split at h
    all_goals simp at h
  | _ =>
    simp only [Child.step] at h
    first
      | split at h <;> simp at h
      | simp at h

end Child

end Nanoclaw
