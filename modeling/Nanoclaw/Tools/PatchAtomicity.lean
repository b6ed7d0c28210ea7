import Nanoclaw.Tools.Patch

/-!
# Atomicity of Patches

A patch that has been staged can still fail, while its files are committed or when it is recorded
as a checkpoint, and what was committed until then stays. Reading the files, staging finds all
that the tree has against a commit. What it does not find is that two of the files that the patch
asks for cannot stand together.
-/

namespace Nanoclaw.Tools

open List Option SortedMap

/-! ### Statement -/

variable (ctx : ToolExecutionContext)

/-- The patch ended with an error, or with a result that is one. -/
def PatchFails : Except ToolError PatchResult → Prop
  | .ok (.applied _) => False
  | _ => True

instance (result : Except ToolError PatchResult) : Decidable (PatchFails result) :=
  match result with
  | .ok (.applied _) => isFalse id
  | .ok (.rejected _) => isTrue trivial
  | .error _ => isTrue trivial

/-- **Atomicity**: if the patch fails, every file and every link is as it was. -/
def PatchAtomic (toolName : String) (disk : Disk) (operations : List PatchOperation) : Prop :=
  PatchFails (executePatchOperations ctx toolName disk operations).1 →
    ∀ location, (executePatchOperations ctx toolName disk operations).2.leafAt location =
      disk.leafAt location

/-- The file at the path is to be changed. -/
def Changes (disk : Disk) (view : View) (path : PathBuf) : Prop :=
  view path ≠ View.ofDisk ctx disk path

/-- The system refuses to change the first of the files. -/
def FirstRefused (disk : Disk) (view : View) : Prop :=
  ∃ path, Changes ctx disk view path ∧ (∀ other, Changes ctx disk view other → path ≤ other) ∧
    ctx.unwritable path = true

/-- No change is refused, no asked-for file is a directory of another. -/
structure Placeable (ctx : ToolExecutionContext) (disk : Disk) (view : View) : Prop where
  writable : ∀ path, Changes ctx disk view path → ctx.unwritable path = false
  apart : ∀ path other, Changes ctx disk view path → Changes ctx disk view other →
    (view path).isSome = true → (view other).isSome = true →
      ¬ FileTree.Above (ctx.locate path) (ctx.locate other)

/-- **The condition on the patch and its surroundings**: it asks for nothing, or its first change is
refused, or all can be made and the checkpoint is not refused. -/
def PatchOrderly (disk : Disk) (operations : List PatchOperation) : Prop :=
  ∀ view, requested ctx disk operations = some view →
    (∀ path, ¬ Changes ctx disk view path) ∨ FirstRefused ctx disk view ∨
      Placeable ctx disk view ∧ ∀ error, ctx.checkpoint ≠ some (.error error)

/-! ### Commits -/

variable {staging : Staging} {ctx} {disk : Disk} {view : View}

section

variable {path : PathBuf}

/-- What a path that can be loaded has on disk. -/
theorem open_of_load {base : Option String} (h : loadOptionalTextFile ctx disk path = .ok base) :
    disk.Open (ctx.locate path) ∧ disk.fileAt (ctx.locate path) = base.map .text := by
  unfold loadOptionalTextFile at h
  split at h
  · cases h
  · have hopen : disk.Open (ctx.locate path) := by
      rw [← FileTree.isRefused_read]
      split at h <;> simp_all [FileTree.Reading.isRefused]
    refine ⟨hopen, ?_⟩
    rw [hopen.read] at h
    rcases hfile : disk.fileAt (ctx.locate path) with _ | _ | _ <;> rw [hfile] at h <;> cases h <;>
      rfl

/-- The place that a commit changes. -/
def committedPlace (ctx : ToolExecutionContext) (disk : Disk) (path : PathBuf) :
    Option String → List FileName
  | some _ => ctx.locate path
  | none => removedPlace ctx disk path

/-- **What a commit does**, if it is not refused. -/
structure Committed (ctx : ToolExecutionContext) (disk : Disk) (path : PathBuf)
    (content : Option String) (disk' : Disk) : Prop where
  writable : ctx.unwritable path = false
  opened : disk.Open (ctx.locate path)
  node : ∀ place, disk'.node place =
    if place = committedPlace ctx disk path content then content.map (.file ∘ .text)
    else if content.isSome = true ∧ place <+: ctx.locate path then some .dir
    else disk.node place
  stays : ∀ place, disk.Open place → (content.isSome = true →
    ¬ FileTree.Above (ctx.locate path) place ∧ ¬ FileTree.Above place (ctx.locate path)) →
      disk'.Open place

theorem commitTextFile_cases (ctx : ToolExecutionContext) (disk : Disk) (path : PathBuf)
    (content : Option String) :
    (commitTextFile ctx disk path content = (.error .io, disk) ∧
      ¬ (ctx.unwritable path = false ∧ disk.Open (ctx.locate path))) ∨
    ∃ disk', commitTextFile ctx disk path content = (.ok (), disk') ∧
      Committed ctx disk path content disk' := by
  unfold commitTextFile
  split
  next h =>
    right
    cases content with
    | none =>
      refine ⟨_, rfl, h.1, h.2, fun place => ?_, fun place hopen _ => .remove _ hopen⟩
      simp [FileTree.node_remove, committedPlace]
    | some content =>
      refine ⟨_, rfl, h.1, h.2, fun place => ?_,
        fun place hopen hapart => .write h.2 hopen _ (hapart rfl).2 (hapart rfl).1⟩
      simp [FileTree.node_write, committedPlace]
  next h => exact .inl ⟨rfl, h⟩

theorem committed_of_ok {content : Option String} {disk' : Disk}
    (h : commitTextFile ctx disk path content = (.ok (), disk')) :
    Committed ctx disk path content disk' := by
  rcases commitTextFile_cases ctx disk path content with ⟨herror, -⟩ | ⟨_, hok, hcommitted⟩
  · exact nomatch herror.symm.trans h
  · rwa [(Prod.mk.inj (hok.symm.trans h)).2] at hcommitted

/-- A commit takes place at the file of the path, or removes a link. -/
theorem committedPlace_cases (ctx : ToolExecutionContext) (disk : Disk) (path : PathBuf)
    (content : Option String) : committedPlace ctx disk path content = ctx.locate path ∨
      content = none ∧
        ∃ target, disk.node (committedPlace ctx disk path content) = some (.link target) := by
  cases content with
  | some content => exact .inl rfl
  | none =>
    rw [committedPlace, removedPlace]
    split
    next hlink =>
      have hlink := (Bool.and_eq_true_iff.mp hlink).1
      refine .inr ⟨rfl, ?_⟩
      rw [endsInLink] at hlink
      rcases hnode : disk.node (ctx.entry path) with _ | _ | _ | target <;> rw [hnode] at hlink
      case some.link => exact ⟨target, rfl⟩
      all_goals cases hlink
    · exact .inl rfl

section Committed

variable {content : Option String} {disk' : Disk} {place : List FileName}
  (h : Committed ctx disk path content disk')

include h

/-- **A commit changes no other file.** -/
theorem Committed.fileAt_of_ne (hne : place ≠ ctx.locate path) :
    disk'.fileAt place = disk.fileAt place := by
  by_cases hplace : place = committedPlace ctx disk path content
  · -- a link is removed, and no file was there
    rcases committedPlace_cases ctx disk path content with hhere | ⟨rfl, target, hlink⟩
    · exact absurd (hplace.trans hhere) hne
    · rw [FileTree.fileAt, h.node, if_pos hplace, FileTree.fileAt, hplace, hlink]
      rfl
  · by_cases habove : content.isSome = true ∧ place <+: ctx.locate path
    · rw [FileTree.fileAt, h.node, if_neg hplace, if_pos habove, FileTree.fileAt]
      rcases h.opened.clear place ⟨habove.2, hne⟩ with hnode | hnode <;> rw [hnode]
    · exact FileTree.fileAt_congr (by rw [h.node, if_neg hplace, if_neg habove])

/-- The file of the path is what was committed, unless a link was removed. -/
theorem Committed.fileAt (hhere : committedPlace ctx disk path content = ctx.locate path) :
    disk'.fileAt (ctx.locate path) = content.map .text := by
  rw [FileTree.fileAt, h.node, if_pos hhere.symm]
  cases content <;> rfl

/-- No commit makes a link. -/
theorem Committed.link {target : FileTree.Route FileName}
    (hlink : disk'.node place = some (.link target)) : disk.node place = some (.link target) := by
  rw [h.node] at hlink
  split at hlink
  · cases content <;> cases hlink
  · split at hlink
    · cases hlink
    · exact hlink

end Committed

/-- The entry is a file that is to be changed. -/
structure Pending (ctx : ToolExecutionContext) (disk : Disk) (entry : StagedFile) : Prop where
  load : loadOptionalTextFile ctx disk entry.resolvedPath = .ok entry.baselineContent
  changed : entry.baselineContent ≠ entry.content

/-- Some file or link is not as it was. -/
def Spoiled (disk disk' : Disk) : Prop :=
  ∃ location, disk'.leafAt location ≠ disk.leafAt location

/-- The links were there before. -/
def KeepsLinks (disk current : Disk) : Prop :=
  ∀ place target, current.node place = some (.link target) → disk.node place = some (.link target)

variable {current : Disk} {entry : StagedFile}

/-- After a commit the file of the entry, or the link to it, is not as it was. -/
theorem spoiled_of_commit {next : Disk} (h : Pending ctx disk entry)
    (hlinks : KeepsLinks disk current)
    (hcommit : Committed ctx current entry.resolvedPath entry.content next) :
    Spoiled disk next := by
  rcases committedPlace_cases ctx current entry.resolvedPath entry.content with
    hhere | ⟨hnone, target, hlink⟩
  · refine ⟨ctx.locate entry.resolvedPath, fun heq => h.changed ?_⟩
    have hfile := FileTree.fileAt_eq_of_leafAt heq
    rw [hcommit.fileAt hhere, (open_of_load h.load).2] at hfile
    refine (map_injective (fun _ _ htext => ?_) hfile).symm
    exact FileData.text.inj htext
  · refine ⟨committedPlace ctx current entry.resolvedPath entry.content, fun heq => ?_⟩
    rw [FileTree.leafAt, hcommit.node, if_pos rfl, FileTree.leafAt, hlinks _ _ hlink, hnone] at heq
    cases heq

variable {entries : List StagedFile}

/-- **A commit that fails leaves the disk alone, and one that succeeds does not repair it.** -/
theorem spoiled_commitAll (h : ∀ entry ∈ entries, Pending ctx disk entry)
    (hlinks : KeepsLinks disk current) (hcurrent : Spoiled disk current) :
    Spoiled disk (commitAll ctx current entries).2 := by
  induction entries generalizing current with
  | nil => exact hcurrent
  | cons entry rest ih =>
    unfold commitAll
    rcases commitTextFile_cases ctx current entry.resolvedPath entry.content with
      ⟨herror, -⟩ | ⟨next, hok, hcommitted⟩
    · rw [herror]
      exact hcurrent
    · rw [hok]
      exact ih (fun other hmem => h other (mem_cons_of_mem _ hmem))
        (fun place target hlink => hlinks place target (hcommitted.link hlink))
        (spoiled_of_commit (h entry mem_cons_self) hlinks hcommitted)

/-- All commits are made if nothing stands in the way of any of them. -/
theorem commitAll_ok (hwritable : ∀ entry ∈ entries, ctx.unwritable entry.resolvedPath = false)
    (hopen : ∀ entry ∈ entries, current.Open (ctx.locate entry.resolvedPath))
    (hapart : ∀ entry ∈ entries, ∀ other ∈ entries, entry.content.isSome = true →
      ¬ FileTree.Above (ctx.locate entry.resolvedPath) (ctx.locate other.resolvedPath) ∧
        ¬ FileTree.Above (ctx.locate other.resolvedPath) (ctx.locate entry.resolvedPath)) :
    (commitAll ctx current entries).1 = .ok () := by
  induction entries generalizing current with
  | nil => rfl
  | cons entry rest ih =>
    unfold commitAll
    rcases commitTextFile_cases ctx current entry.resolvedPath entry.content with
      ⟨-, hrefused⟩ | ⟨next, hok, hcommitted⟩
    · exact absurd ⟨hwritable entry mem_cons_self, hopen entry mem_cons_self⟩ hrefused
    · rw [hok]
      refine ih (fun other hmem => hwritable other (mem_cons_of_mem _ hmem))
        (fun other hmem => ?_) fun one hone other hother =>
          hapart one (mem_cons_of_mem _ hone) other (mem_cons_of_mem _ hother)
      exact hcommitted.stays _ (hopen other (mem_cons_of_mem _ hmem))
        (hapart entry mem_cons_self other (mem_cons_of_mem _ hmem))

/-- A file that is only ever written is there after the commits. -/
theorem fileAt_commitAll {place : List FileName} (h : (commitAll ctx current entries).1 = .ok ())
    (hwritten : ∀ entry ∈ entries, ctx.locate entry.resolvedPath = place →
      entry.content.isSome = true)
    (hplace : (∃ entry ∈ entries, ctx.locate entry.resolvedPath = place) ∨
      (current.fileAt place).isSome = true) :
    ((commitAll ctx current entries).2.fileAt place).isSome = true := by
  induction entries generalizing current with
  | nil => exact hplace.resolve_left fun ⟨_, hmem, _⟩ => absurd hmem not_mem_nil
  | cons entry rest ih =>
    unfold commitAll at h ⊢
    rcases commitTextFile_cases ctx current entry.resolvedPath entry.content with
      ⟨herror, -⟩ | ⟨next, hok, hcommitted⟩
    · rw [herror] at h
      cases h
    · rw [hok] at h ⊢
      refine ih h (fun other hmem => hwritten other (mem_cons_of_mem _ hmem)) ?_
      by_cases hhere : place = ctx.locate entry.resolvedPath
      · have hsome := hwritten entry mem_cons_self hhere.symm
        right
        obtain ⟨content, hcontent⟩ := isSome_iff_exists.mp hsome
        rw [hhere, hcommitted.fileAt (by rw [hcontent]; rfl), isSome_map, hsome]
      · rw [hcommitted.fileAt_of_ne hhere]
        refine hplace.imp_left ?_
        rintro ⟨other, hmem, heq⟩
        rcases mem_cons.mp hmem with rfl | hmem
        · exact absurd heq.symm hhere
        · exact ⟨other, hmem, heq⟩

/-- No commit is made against a refusal. -/
theorem writable_of_commitAll (h : (commitAll ctx current entries).1 = .ok ()) :
    ∀ entry ∈ entries, ctx.unwritable entry.resolvedPath = false := by
  induction entries generalizing current with
  | nil => exact nofun
  | cons entry rest ih =>
    unfold commitAll at h
    rcases commitTextFile_cases ctx current entry.resolvedPath entry.content with
      ⟨herror, -⟩ | ⟨next, hok, hcommitted⟩
    · rw [herror] at h
      cases h
    · rw [hok] at h
      exact forall_mem_cons.mpr ⟨hcommitted.writable, ih h⟩

/-- Of two places one above the other, only missing ones can both be written. -/
theorem missing_of_above {above below : List FileName} (h : FileTree.Above above below)
    (habove : disk.Open above) (hbelow : disk.Open below) :
    disk.fileAt above = none ∧ disk.fileAt below = none := by
  have hnode : disk.node above = none := (hbelow.clear above h).resolve_right habove.not_dir
  refine ⟨by rw [FileTree.fileAt, hnode], ?_⟩
  cases hfile : disk.fileAt below with
  | none => rfl
  | some data => cases hnode.symm.trans (FileTree.dir_of_fileAt h (by rw [hfile]; rfl))

/-- A file that was missing and is to be changed is to be written. -/
theorem Pending.isSome (h : Pending ctx disk entry)
    (hmissing : disk.fileAt (ctx.locate entry.resolvedPath) = none) :
    entry.content.isSome = true := by
  rw [(open_of_load h.load).2, map_eq_none_iff] at hmissing
  rw [isSome_iff_ne_none]
  exact fun hnone => h.changed (hmissing.trans hnone.symm)

/-- **When all of the changed files can be committed.** -/
theorem commitAll_ok_iff (h : ∀ entry ∈ entries, Pending ctx disk entry) :
    (commitAll ctx disk entries).1 = .ok () ↔
      (∀ entry ∈ entries, ctx.unwritable entry.resolvedPath = false) ∧
        ∀ entry ∈ entries, ∀ other ∈ entries, entry.content.isSome = true →
          other.content.isSome = true →
            ¬ FileTree.Above (ctx.locate entry.resolvedPath) (ctx.locate other.resolvedPath) := by
  have hopen : ∀ entry ∈ entries, disk.Open (ctx.locate entry.resolvedPath) :=
    fun entry hmem => (open_of_load (h entry hmem).load).1
  constructor
  · intro hok
    refine ⟨writable_of_commitAll hok, fun entry hentry other hother _ _ habove => ?_⟩
    obtain ⟨hmissing, hmissing'⟩ :=
      missing_of_above habove (hopen entry hentry) (hopen other hother)
    -- Both files are there in the end, one above the other.
    refine (commitAll ctx disk entries).2.not_nested ?_ ?_ habove
    · refine fileAt_commitAll hok (fun one hone hplace => ?_) (.inl ⟨entry, hentry, rfl⟩)
      exact (h one hone).isSome (hplace ▸ hmissing)
    · refine fileAt_commitAll hok (fun one hone hplace => ?_) (.inl ⟨other, hother, rfl⟩)
      exact (h one hone).isSome (hplace ▸ hmissing')
  · rintro ⟨hwritable, hapart⟩
    have hnot : ∀ entry ∈ entries, ∀ other ∈ entries,
        ¬ FileTree.Above (ctx.locate entry.resolvedPath) (ctx.locate other.resolvedPath) := by
      intro entry hentry other hother habove
      obtain ⟨hmissing, hmissing'⟩ :=
        missing_of_above habove (hopen entry hentry) (hopen other hother)
      exact hapart entry hentry other hother ((h entry hentry).isSome hmissing)
        ((h other hother).isSome hmissing') habove
    exact commitAll_ok hwritable hopen fun entry hentry other hother _ =>
      ⟨hnot entry hentry other hother, hnot other hother entry hentry⟩

/-! ### The changed files -/

section

variable (h : Represents ctx disk staging.staged view)

include h

/-- The entries that are committed are the changes that the patch asks for. -/
theorem Represents.mem_changedEntries (hmem : entry ∈ staging.changedEntries) :
    Pending ctx disk entry ∧ entry.content = view entry.resolvedPath ∧
      Changes ctx disk view entry.resolvedPath := by
  obtain ⟨hmem, hchanged⟩ := mem_filter.mp hmem
  obtain ⟨⟨path, entry⟩, hstaged, rfl⟩ := mem_map.mp hmem
  have hstands := h.standsFor path
  rw [h.sorted.mem_iff.mp hstaged] at hstands
  obtain ⟨rfl, hload, hcontent⟩ := hstands
  have hne : entry.baselineContent ≠ entry.content := by simpa [StagedFile.changed] using hchanged
  refine ⟨⟨hload, hne⟩, hcontent, ?_⟩
  rw [Changes, View.ofDisk_of_ok hload, ← hcontent]
  exact hne.symm

theorem Represents.exists_changedEntries (hchanges : Changes ctx disk view path) :
    ∃ entry ∈ staging.changedEntries, entry.resolvedPath = path := by
  have hstands := h.standsFor path
  cases hget : get path staging.staged with
  | none =>
    rw [hget] at hstands
    exact absurd hstands hchanges
  | some entry =>
    rw [hget] at hstands
    obtain ⟨hpath, hload, hcontent⟩ := hstands
    refine ⟨entry, mem_filter.mpr ⟨mem_map.mpr ⟨_, mem_of_get hget, rfl⟩, ?_⟩, hpath⟩
    rw [Changes, View.ofDisk_of_ok hload, ← hcontent] at hchanges
    simpa [StagedFile.changed] using Ne.symm hchanges

/-- They are committed in the order of their paths. -/
theorem Represents.pairwise_changedEntries :
    staging.changedEntries.Pairwise fun entry other => entry.resolvedPath < other.resolvedPath := by
  refine .filter _ (pairwise_map.mpr ?_)
  refine .imp_of_mem (fun {one other} hone hother hlt => ?_) h.sorted
  have hpath : ∀ x ∈ staging.staged, x.2.resolvedPath = x.1 := by
    rintro ⟨path, entry⟩ hmem
    have hstands := h.standsFor path
    rw [h.sorted.mem_iff.mp hmem] at hstands
    exact hstands.1
  rw [hpath one hone, hpath other hother]
  exact hlt

/-- When all of the changed files can be committed, in terms of what the patch asks for. -/
theorem Represents.commitAll_ok_iff :
    (commitAll ctx disk staging.changedEntries).1 = .ok () ↔ Placeable ctx disk view := by
  rw [Tools.commitAll_ok_iff fun entry hmem => (h.mem_changedEntries hmem).1]
  constructor
  · rintro ⟨hwritable, hapart⟩
    refine ⟨fun path hchanges => ?_, fun path other hpath hother hsome hsome' => ?_⟩
    · obtain ⟨entry, hmem, rfl⟩ := h.exists_changedEntries hchanges
      exact hwritable entry hmem
    · obtain ⟨entry, hmem, rfl⟩ := h.exists_changedEntries hpath
      obtain ⟨entry', hmem', rfl⟩ := h.exists_changedEntries hother
      rw [← (h.mem_changedEntries hmem).2.1] at hsome
      rw [← (h.mem_changedEntries hmem').2.1] at hsome'
      exact hapart entry hmem entry' hmem' hsome hsome'
  · rintro ⟨hwritable, hapart⟩
    refine ⟨fun entry hmem => hwritable _ (h.mem_changedEntries hmem).2.2,
      fun entry hmem other hmem' hsome hsome' => ?_⟩
    obtain ⟨-, hcontent, hchanges⟩ := h.mem_changedEntries hmem
    obtain ⟨-, hcontent', hchanges'⟩ := h.mem_changedEntries hmem'
    exact hapart _ _ hchanges hchanges' (hcontent ▸ hsome) (hcontent' ▸ hsome')

end

end

/-! ### Atomicity -/

theorem recordCheckpoint_error_iff (ctx : ToolExecutionContext) {changed : List StagedFile}
    (hne : changed ≠ []) :
    (∃ error, recordCheckpoint ctx changed = .error error) ↔
      ∃ error, ctx.checkpoint = some (.error error) := by
  unfold recordCheckpoint
  rw [if_neg (by simpa using hne)]
  cases ctx.checkpoint with
  | none => simp
  | some answer => cases answer <;> simp [Except.map]

section

variable (ctx) (disk) (operations : List PatchOperation)

theorem finishPatch_fails_iff (hne : staging.changedEntries ≠ []) :
    PatchFails (finishPatch ctx disk operations staging).1 ↔
      ¬ ((commitAll ctx disk staging.changedEntries).1 = .ok () ∧
        ∀ error, ctx.checkpoint ≠ some (.error error)) := by
  have hrecord := recordCheckpoint_error_iff ctx hne
  rcases hcommit : commitAll ctx disk staging.changedEntries with ⟨error | _, disk'⟩
  · simp [finishPatch, hcommit, PatchFails]
  · cases hcheckpoint : recordCheckpoint ctx staging.changedEntries with
    | error error =>
      obtain ⟨error', herror⟩ := hrecord.mp ⟨error, hcheckpoint⟩
      simp [finishPatch, hcommit, hcheckpoint, PatchFails, herror]
    | ok checkpointId => simp_all [finishPatch, PatchFails]

theorem finishPatch_disk (staging : Staging) : (finishPatch ctx disk operations staging).2 =
      (commitAll ctx disk staging.changedEntries).2 := by
  rcases hcommit : commitAll ctx disk staging.changedEntries with ⟨error | _, disk'⟩
  · simp only [finishPatch, hcommit]
  · cases hcheckpoint : recordCheckpoint ctx staging.changedEntries <;>
      simp only [finishPatch, hcommit, hcheckpoint]

end

theorem finishPatch_atomic_iff {operations : List PatchOperation}
    (hview : requested ctx disk operations = some view)
    (h : Represents ctx disk staging.staged view) :
    (PatchFails (finishPatch ctx disk operations staging).1 →
      ∀ location, (finishPatch ctx disk operations staging).2.leafAt location =
        disk.leafAt location) ↔ PatchOrderly ctx disk operations := by
  simp only [PatchOrderly, hview, some.injEq, forall_eq']
  have hpending : ∀ entry ∈ staging.changedEntries, Pending ctx disk entry :=
    fun entry hmem => (h.mem_changedEntries hmem).1
  rw [finishPatch_disk]
  rcases hentries : staging.changedEntries with _ | ⟨entry, rest⟩
  · -- Nothing is to be changed.
    refine iff_of_true (fun _ _ => rfl) (.inl fun path hchanges => ?_)
    obtain ⟨entry, hmem, -⟩ := h.exists_changedEntries hchanges
    rw [hentries] at hmem
    cases hmem
  · have hfirst : entry ∈ staging.changedEntries := by rw [hentries]; exact mem_cons_self
    have hchanges := (h.mem_changedEntries hfirst).2.2
    have hleast : ∀ other, Changes ctx disk view other → entry.resolvedPath ≤ other := by
      intro other hother
      obtain ⟨entry', hmem, rfl⟩ := h.exists_changedEntries hother
      rw [hentries] at hmem
      rcases mem_cons.mp hmem with rfl | hmem
      · exact le_rfl
      · have hpairwise := h.pairwise_changedEntries
        rw [hentries] at hpairwise
        exact (rel_of_pairwise_cons hpairwise hmem).le
    rcases commitTextFile_cases ctx disk entry.resolvedPath entry.content with
      ⟨herror, hrefused⟩ | ⟨next, hok, hcommitted⟩
    · -- The first commit is refused, and no other is made.
      have hunwritable : ctx.unwritable entry.resolvedPath = true := by
        have hopen := (open_of_load (hpending entry hfirst).load).1
        simpa [hopen] using hrefused
      refine iff_of_true (fun _ location => ?_)
        (.inr (.inl ⟨entry.resolvedPath, hchanges, hleast, hunwritable⟩))
      simp only [commitAll, herror]
    · -- The first commit is made, so the patch must not fail any more.
      have hspoiled : Spoiled disk (commitAll ctx disk (entry :: rest)).2 := by
        simp only [commitAll, hok]
        refine spoiled_commitAll (fun other hmem => ?_) (fun _ _ hlink => hcommitted.link hlink)
          (spoiled_of_commit (hpending entry hfirst) (fun _ _ hlink => hlink) hcommitted)
        exact hpending other (hentries ▸ mem_cons_of_mem _ hmem)
      obtain ⟨location, hlocation⟩ := hspoiled
      have hnotRefused : ¬ FirstRefused ctx disk view := by
        rintro ⟨path, hpath, hpathLeast, hunwritable⟩
        obtain rfl := le_antisymm (hpathLeast _ hchanges) (hleast _ hpath)
        exact nomatch hcommitted.writable.symm.trans hunwritable
      rw [or_iff_right fun hnone => hnone _ hchanges, or_iff_right hnotRefused,
        ← h.commitAll_ok_iff]
      have hne : staging.changedEntries ≠ [] := by
        rw [hentries]
        exact cons_ne_nil _ _
      rw [finishPatch_fails_iff ctx disk operations hne, not_imp_comm]
      exact ⟨fun himp => himp fun hall => hlocation (hall location), fun hok _ => hok⟩

/-- **When a patch is atomic**: if and only if it is orderly, for every list of operations and every
disk. -/
theorem patch_is_atomic_iff (ctx : ToolExecutionContext) (toolName : String) (disk : Disk)
    (operations : List PatchOperation) :
    PatchAtomic ctx toolName disk operations ↔ PatchOrderly ctx disk operations := by
  unfold PatchAtomic executePatchOperations
  by_cases hempty : operations.isEmpty = true
  · rw [if_pos hempty]
    obtain rfl := isEmpty_iff.mp hempty
    refine iff_of_true (fun _ _ => rfl) fun view hview => .inl fun path hchanges => hchanges ?_
    rw [← some.inj hview]
  · rw [if_neg hempty]
    rcases stageOperations_requested ctx disk operations with
      ⟨halt, hstage, hview⟩ | ⟨staging, view, hstage, hview, hrepresents⟩
    · -- Nothing has been written.
      have horderly : PatchOrderly ctx disk operations := fun view hsome =>
        nomatch hview.symm.trans hsome
      rw [hstage]
      cases halt <;> exact iff_of_true (fun _ _ => rfl) horderly
    · rw [hstage]
      exact finishPatch_atomic_iff hview hrepresents

/-! ### Patches that are not atomic -/

/-- The names of a path that is given as a text. -/
def namesOf (text : String) : List FileName :=
  (text.toList.splitOn '/').filterMap fun name =>
    if h : isFileName (String.ofList name) = true then some ⟨String.ofList name, h⟩ else none

/-- Where a path leads if there are no links. -/
def plainLocation (path : PathBuf) : List FileName :=
  path.filterMap fun
    | .normal name => some name
    | _ => none

/-- A workspace at the root, where everything is allowed and nothing is refused. -/
def rootWorkspace : ToolExecutionContext where
  resolveToolPath text := .ok (.rootDir :: (namesOf text).map .normal)
  assertPathWriteAllowed _ := .ok ()
  locate := plainLocation
  entry := plainLocation
  unreadable _ := false
  unwritable _ := false
  checkpoint := none
  stableTextHash := id

def emptyDisk : Disk :=
  .ofEntries [] rfl

/-- A plain `write` operation. -/
def writeFile (path content : String) : PatchOperation :=
  .write path content none none none

/-- **A patch that fails can have changed files**: `a` is committed before `a/b` turns out to be
impossible, or a checkpoint is refused. -/
theorem failed_patch_changes_files : ((executePatchOperations rootWorkspace "patch_files" emptyDisk
        [writeFile "a" "1", writeFile "a/b" "2"]).1 = .error .io ∧
      (executePatchOperations rootWorkspace "patch_files" emptyDisk
        [writeFile "a" "1", writeFile "a/b" "2"]).2.fileAt (namesOf "a") = some (.text "1") ∧
      emptyDisk.fileAt (namesOf "a") = none) ∧
    (executePatchOperations { rootWorkspace with checkpoint := some (.error .io) } "patch_files"
        emptyDisk [writeFile "a" "1"]).1 = .error .io ∧
      (executePatchOperations { rootWorkspace with checkpoint := some (.error .io) } "patch_files"
        emptyDisk [writeFile "a" "1"]).2.fileAt (namesOf "a") = some (.text "1") := by
  decide +kernel

end Nanoclaw.Tools
