import Nanoclaw.Tools.PatchAtomicity

/-!
# Patches Applied Directly

A patch compared with its operations made one after the other on the disk itself. Made directly,
an operation leaves the directories that were made for its files, also if these are gone in the
end. And operations can be staged that could not be made one after the other: a file can be
staged, then another one as if the first were a directory, as long as one is gone in the end.

It is assumed that no two of the paths of the patch lead to the same file, and that none of them
ends in a link: a file that is deleted and written again is the file of the link if it is staged,
and takes the place of the link if the operations are made directly.
-/

namespace Nanoclaw.Tools

open List Option SortedMap

/-! ### Statement -/

variable (ctx : ToolExecutionContext)

/-- The changes of an operation, made one after the other. -/
def commitEffect : Disk → List (PathBuf × Option String) → Option Disk
  | disk, [] => some disk
  | disk, (path, content) :: rest =>
    match commitTextFile ctx disk path content with
    | (.ok (), disk) => commitEffect disk rest
    | (.error _, _) => none

/-- **The operations made directly**, one after the other, as long as none of them fails. -/
def applyDirectly : Disk → List PatchOperation → Option Disk
  | disk, [] => some disk
  | disk, operation :: rest => do
    let effect ← operation.effect ctx (loadOptionalTextFile ctx disk)
    let disk ← commitEffect ctx disk effect
    applyDirectly disk rest

/-- The texts of the paths of an operation. -/
def PatchOperation.pathTexts : PatchOperation → List String
  | move fromPath toPath .. => [fromPath, toPath]
  | operation => [operation.primaryPath]

/-- The resolved paths of an operation. -/
def PatchOperation.paths (operation : PatchOperation) : List PathBuf :=
  operation.pathTexts.filterMap fun path => (ctx.resolveToolPath path).toOption

def namedPaths (operations : List PatchOperation) : List PathBuf :=
  operations.flatMap (·.paths ctx)

/-- No two of the paths lead to the same file. -/
def Unaliased (operations : List PatchOperation) : Prop :=
  ∀ path ∈ namedPaths ctx operations, ∀ other ∈ namedPaths ctx operations,
    ctx.locate path = ctx.locate other → path = other

/-! ### The effect of an operation -/

variable {content : Option String} {paths : List PathBuf}

section

variable {ctx} {disk : Disk} {view : View} {text fromPath toPath : String} {path : PathBuf}

theorem resolveAllowed_ok (h : resolveAllowed ctx text = .ok path) :
    ctx.resolveToolPath text = .ok path := by
  grind [resolveAllowed]

theorem resolveMove_ok {source destination : PathBuf}
    (h : resolveMove ctx fromPath toPath = .ok (source, destination)) :
    ctx.resolveToolPath fromPath = .ok source ∧ ctx.resolveToolPath toPath = .ok destination := by
  grind [resolveMove]

/-- The files that an operation changes are among those that it has loaded. -/
def Loaded (load : PathBuf → Except ToolError (Option String)) (paths : List PathBuf)
    (effect : List (PathBuf × Option String)) : Prop :=
  ∀ change ∈ effect, change.1 ∈ paths ∧ ∃ content, load change.1 = .ok content

/-- Another source of texts gives the same effect, or none. -/
def Transfers (load load' : PathBuf → Except ToolError (Option String)) (paths : List PathBuf)
    (effect : List (PathBuf × Option String)) (effect' : Effect) : Prop :=
  effect' = some effect ∨ effect' = none ∧
    ∃ path ∈ paths, (∃ content, load path = .ok content) ∧ ∃ error, load' path = .error error

variable {load load' : PathBuf → Except ToolError (Option String)}
  {effect : List (PathBuf × Option String)} {operation : PatchOperation}

theorem mem_paths (htext : text ∈ operation.pathTexts)
    (hresolve : ctx.resolveToolPath text = .ok path) : path ∈ operation.paths ctx :=
  mem_filterMap.mpr ⟨text, htext, by rw [hresolve]; rfl⟩

/-- Where the texts of a source agree, as far as they can be loaded. -/
def LoadsAlike (load load' : PathBuf → Except ToolError (Option String)) (paths : List PathBuf) :
    Prop :=
  ∀ path ∈ paths, ∀ content, load path = .ok content →
    load' path = .ok content ∨ ∃ error, load' path = .error error

/-- A path that was loaded can still be loaded, or the effect is gone. -/
theorem LoadsAlike.transfers {effect' : Effect} (hload : LoadsAlike load load' paths)
    (hmem : path ∈ paths) (hcontent : load path = .ok content)
    (hok : load' path = .ok content → Transfers load load' paths effect effect')
    (herror : ∀ error, load' path = .error error → effect' = none) :
    Transfers load load' paths effect effect' := by
  rcases hload path hmem content hcontent with hsame | ⟨error, hfailed⟩
  · exact hok hsame
  · exact .inr ⟨herror error hfailed, path, hmem, ⟨content, hcontent⟩, error, hfailed⟩

theorem mutationEffect_transfer (htext : operation.primaryPath ∈ operation.pathTexts)
    (hload : LoadsAlike load load' (operation.paths ctx))
    (h : operation.mutationEffect ctx load = some effect) :
    Loaded load (operation.paths ctx) effect ∧
      Transfers load load' (operation.paths ctx) effect (operation.mutationEffect ctx load') := by
  unfold PatchOperation.mutationEffect at h ⊢
  split at h
  · cases h
  next path hpath =>
    have hmem := mem_paths htext (resolveAllowed_ok hpath)
    split at h
    · cases h
    next existing hexisting =>
      refine ⟨?_, hload.transfers hmem hexisting (fun hok => .inl (by rw [hok]; exact h))
        fun error hfailed => by rw [hfailed]⟩
      split at h
      · cases h
      · split at h
        · cases h
        · cases h
          exact forall_mem_singleton.mpr ⟨hmem, existing, hexisting⟩

theorem moveEffect_transfer {expectedSnapshot : Option String}
    {ifDestinationExists : WriteExistingBehavior} {ignoreMissing : Bool}
    (hfrom : fromPath ∈ operation.pathTexts) (hto : toPath ∈ operation.pathTexts)
    (hload : LoadsAlike load load' (operation.paths ctx))
    (h : moveEffect ctx load fromPath toPath expectedSnapshot ifDestinationExists ignoreMissing =
      some effect) :
    Loaded load (operation.paths ctx) effect ∧
      Transfers load load' (operation.paths ctx) effect (moveEffect ctx load' fromPath toPath
        expectedSnapshot ifDestinationExists ignoreMissing) := by
  unfold moveEffect at h ⊢
  split at h
  · cases h
  next source destination hresolve =>
    have hsource := mem_paths hfrom (resolveMove_ok hresolve).1
    have hdestination := mem_paths hto (resolveMove_ok hresolve).2
    split at h
    · cases h
    next hsame =>
      rw [if_neg hsame]
      split at h
      · cases h
      next hmissing =>
        refine ⟨?_, hload.transfers hsource hmissing (fun hok => .inl (by rw [hok]; exact h))
          fun error hfailed => by rw [hfailed]⟩
        split at h
        · cases h
          exact nofun
        · cases h
      next content hcontent =>
        split at h
        next hsnapshot =>
          split at h
          · cases h
          next existing hexisting =>
            refine ⟨?_, hload.transfers hsource hcontent (fun hok => ?_)
              fun error hfailed => by rw [hfailed]⟩
            · split at h
              · cases h
              · cases h
                exact forall_mem_cons.mpr ⟨⟨hdestination, existing, hexisting⟩,
                  forall_mem_singleton.mpr ⟨hsource, _, hcontent⟩⟩
            · rw [hok]
              dsimp only
              rw [if_pos hsnapshot]
              exact hload.transfers hdestination hexisting
                (fun hok' => .inl (by rw [hok']; exact h)) fun error hfailed => by rw [hfailed]
        · cases h

/-- **The effect of an operation with another source of texts.** -/
theorem effect_transfer (hload : LoadsAlike load load' (operation.paths ctx))
    (h : operation.effect ctx load = some effect) :
    Loaded load (operation.paths ctx) effect ∧
      Transfers load load' (operation.paths ctx) effect (operation.effect ctx load') := by
  cases operation with
  | write | edit | delete => exact mutationEffect_transfer mem_cons_self hload h
  | move => exact moveEffect_transfer mem_cons_self (mem_cons_of_mem _ mem_cons_self) hload h

end

/-! ### Disks that show a view -/

section

variable {ctx} {disk current next : Disk} {view : View} {named : List PathBuf}

/-- One of the paths, and its file can be read on the disk that the patch starts with. -/
def Usable (ctx : ToolExecutionContext) (disk : Disk) (named : List PathBuf) (path : PathBuf) :
    Prop :=
  path ∈ named ∧ ∃ base, loadOptionalTextFile ctx disk path = .ok base

/-- **The disk shows the view** at usable paths, and else the files that were there. -/
structure Shows (ctx : ToolExecutionContext) (disk : Disk) (named : List PathBuf) (view : View)
    (current : Disk) : Prop where
  atNamed : ∀ path, Usable ctx disk named path →
    current.fileAt (ctx.locate path) = (view path).map .text
  elsewhere : ∀ place, (∀ path, Usable ctx disk named path → ctx.locate path ≠ place) →
    current.fileAt place = disk.fileAt place
  links : KeepsLinks disk current

theorem shows_ofDisk : Shows ctx disk named (.ofDisk ctx disk) disk where
  atNamed := by
    rintro path ⟨-, base, hload⟩
    rw [(open_of_load hload).2, View.ofDisk_of_ok hload]
  elsewhere _ _ := rfl
  links _ _ := id

/-- **Disks that show the same view have the same files.** -/
theorem Shows.unique {current' : Disk} (h : Shows ctx disk named view current)
    (h' : Shows ctx disk named view current') (place : List FileName) :
    current.fileAt place = current'.fileAt place := by
  by_cases hplace : ∃ path, Usable ctx disk named path ∧ ctx.locate path = place
  · obtain ⟨path, husable, rfl⟩ := hplace
    rw [h.atNamed path husable, h'.atNamed path husable]
  · have hother : ∀ path, Usable ctx disk named path → ctx.locate path ≠ place :=
      fun path husable heq => hplace ⟨path, husable, heq⟩
    rw [h.elsewhere place hother, h'.elsewhere place hother]

variable {path : PathBuf}

/-- What is loaded from a disk that shows the view. -/
theorem Shows.load (h : Shows ctx disk named view current) (husable : Usable ctx disk named path) :
    loadOptionalTextFile ctx current path = .ok (view path) ∨
      (∃ error, loadOptionalTextFile ctx current path = .error error) ∧
        ¬ current.Open (ctx.locate path) := by
  have hreadable : ctx.unreadable path = false := by
    obtain ⟨-, base, hload⟩ := husable
    unfold loadOptionalTextFile at hload
    split at hload
    · cases hload
    next hreadable => simpa using hreadable
  rw [loadOptionalTextFile, hreadable]
  by_cases hopen : current.Open (ctx.locate path)
  · left
    rw [hopen.read, h.atNamed path husable]
    cases view path <;> rfl
  · right
    refine ⟨?_, hopen⟩
    rw [← FileTree.isRefused_read, Bool.not_eq_false] at hopen
    cases hread : current.read (ctx.locate path) with
    | refused => exact ⟨_, rfl⟩
    | _ => rw [hread] at hopen; cases hopen

theorem load_eq_ok (h : view.load ctx disk path = .ok content) :
    ∃ base, loadOptionalTextFile ctx disk path = .ok base ∧ content = view path := by
  cases hload : loadOptionalTextFile ctx disk path with
  | error error => exact nomatch (View.load_of_error hload).symm.trans h
  | ok base => exact ⟨base, rfl, (Except.ok.inj ((View.load_of_ok hload).symm.trans h)).symm⟩

/-- The paths lead to different files, and none of them ends in a link. -/
structure Separate (ctx : ToolExecutionContext) (disk : Disk) (named : List PathBuf) : Prop where
  apart : ∀ path ∈ named, ∀ other ∈ named, ctx.locate path = ctx.locate other → path = other
  plain : ∀ path ∈ named, endsInLink ctx disk path = false

theorem committedPlace_of_plain (h : endsInLink ctx disk path = false) (content : Option String) :
    committedPlace ctx disk path content = ctx.locate path := by
  cases content with
  | some content => rfl
  | none => simp [committedPlace, removedPlace, h]

/-- A path that did not end in a link does not end in one later. -/
theorem KeepsLinks.plain (hlinks : KeepsLinks disk current)
    (h : endsInLink ctx disk path = false) : endsInLink ctx current path = false := by
  unfold endsInLink at h ⊢
  rcases hnode : current.node (ctx.entry path) with _ | _ | _ | target
  case some.link => rw [hlinks _ _ hnode] at h; exact h
  all_goals rfl

/-- **A commit changes what is shown.** -/
theorem Shows.commit (hseparate : Separate ctx disk named) (h : Shows ctx disk named view current)
    (husable : Usable ctx disk named path)
    (hcommit : commitTextFile ctx current path content = (.ok (), next)) :
    Shows ctx disk named (Function.update view path content) next := by
  have hcommitted := committed_of_ok hcommit
  have hhere := committedPlace_of_plain (h.links.plain (hseparate.plain path husable.1)) content
  refine ⟨fun other hother => ?_, fun place hplace => ?_,
    fun place target hlink => h.links place target (hcommitted.link hlink)⟩
  · by_cases heq : other = path
    · rw [heq, hcommitted.fileAt hhere, Function.update_self]
    · rw [hcommitted.fileAt_of_ne fun hplace =>
          heq (hseparate.apart other hother.1 path husable.1 hplace),
        Function.update_of_ne heq]
      exact h.atNamed other hother
  · rw [hcommitted.fileAt_of_ne (Ne.symm (hplace path husable))]
    exact h.elsewhere place hplace

variable {effect : List (PathBuf × Option String)}

theorem Shows.commitEffect (hseparate : Separate ctx disk named)
    (h : Shows ctx disk named view current)
    (husable : ∀ change ∈ effect, Usable ctx disk named change.1)
    (hcommit : commitEffect ctx current effect = some next) :
    Shows ctx disk named (view.apply effect) next := by
  induction effect generalizing current view with
  | nil =>
    cases hcommit
    exact h
  | cons change rest ih =>
    obtain ⟨path, content⟩ := change
    obtain ⟨hpath, hrest⟩ := forall_mem_cons.mp husable
    unfold Tools.commitEffect at hcommit
    split at hcommit
    next current' hok => exact ih (h.commit hseparate hpath hok) hrest hcommit
    · cases hcommit

/-! ### Directories -/

/-- Directories and links stay what they are, and no links are made. -/
structure Grown (disk disk' : Disk) : Prop where
  dir : ∀ place, disk.node place = some .dir → disk'.node place = some .dir
  link : ∀ place target, disk'.node place = some (.link target) ↔
    disk.node place = some (.link target)

theorem Grown.refl (disk : Disk) : Grown disk disk :=
  ⟨fun _ h => h, fun _ _ => .rfl⟩

theorem Grown.trans {disk'' : Disk} (h : Grown disk current) (h' : Grown current disk'') :
    Grown disk disk'' :=
  ⟨fun place hdir => h'.dir place (h.dir place hdir),
    fun place target => (h'.link place target).trans (h.link place target)⟩

/-- What a commit does to directories and links. -/
theorem grown_of_commit (hplain : endsInLink ctx current path = false)
    (h : commitTextFile ctx current path content = (.ok (), next)) :
    Grown current next ∧ ∀ place, next.node place = some .dir → current.node place = some .dir ∨
        content.isSome = true ∧ FileTree.Above place (ctx.locate path) := by
  obtain ⟨-, hopen, hnode, -⟩ := committed_of_ok h
  simp only [committedPlace_of_plain hplain] at hnode
  refine ⟨⟨fun place hdir => ?_, fun place target => ?_⟩, fun place hdir => ?_⟩
  · rw [hnode, if_neg, hdir, ite_self]
    rintro rfl
    exact hopen.not_dir hdir
  · rw [hnode]
    split
    next heq =>
      subst heq
      exact ⟨by cases content <;> rintro ⟨⟩, fun hlink => absurd hlink (hopen.not_link target)⟩
    next hne =>
      split
      next habove => rcases hopen.clear place ⟨habove.2, hne⟩ with hplace | hplace <;> simp [hplace]
      · exact .rfl
  · rw [hnode] at hdir
    split at hdir
    · cases content <;> cases hdir
    next hne =>
      split at hdir
      next habove => exact .inr ⟨habove.1, habove.2, hne⟩
      · exact .inl hdir

theorem grown_of_commitEffect (hplain : ∀ change ∈ effect, endsInLink ctx current change.1 = false)
    (h : commitEffect ctx current effect = some next) :
    Grown current next ∧ ∀ place, next.node place = some .dir →
      current.node place = some .dir ∨ ∃ change ∈ effect, change.2.isSome = true ∧
        FileTree.Above place (ctx.locate change.1) := by
  induction effect generalizing current with
  | nil =>
    cases h
    exact ⟨.refl _, fun _ hdir => .inl hdir⟩
  | cons change rest ih =>
    unfold commitEffect at h
    split at h
    next current' hok =>
      obtain ⟨hfirst, hrest⟩ := forall_mem_cons.mp hplain
      obtain ⟨hgrown, hdirs⟩ := grown_of_commit hfirst hok
      have hlinks : KeepsLinks current current' := fun place target => (hgrown.link place target).mp
      obtain ⟨hgrown', hdirs'⟩ := ih (fun other hmem => hlinks.plain (hrest other hmem)) h
      refine ⟨hgrown.trans hgrown', fun place hdir => ?_⟩
      rcases hdirs' place hdir with hdir | ⟨change, hmem, hchange⟩
      · exact (hdirs place hdir).imp_right fun hnew => ⟨_, mem_cons_self, hnew⟩
      · exact .inr ⟨change, mem_cons_of_mem _ hmem, hchange⟩
    · cases h

/-! ### The operations made directly -/

variable {view' : View} {direct : Disk} {staging : Staging}

/-- What is loaded from the view is loaded from a disk that shows it, unless blocked. -/
theorem Shows.loadsAlike (h : Shows ctx disk named view current)
    (hpaths : ∀ path ∈ paths, path ∈ named) :
    LoadsAlike (view.load ctx disk) (loadOptionalTextFile ctx current) paths := by
  intro path hmem content hload
  obtain ⟨base, hbase, hcontent⟩ := load_eq_ok hload
  rcases h.load ⟨hpaths path hmem, base, hbase⟩ with hok | ⟨herror, -⟩
  · exact .inl (hok.trans (congrArg _ hcontent.symm))
  · exact .inr herror

/-- The files that an operation changes can be used. -/
theorem usable_of_loaded (h : Loaded (view.load ctx disk) paths effect)
    (hpaths : ∀ path ∈ paths, path ∈ named) :
    ∀ change ∈ effect, Usable ctx disk named change.1 := by
  intro change hmem
  obtain ⟨hpath, content, hload⟩ := h change hmem
  obtain ⟨base, hbase, -⟩ := load_eq_ok hload
  exact ⟨hpaths _ hpath, base, hbase⟩

variable {operations : List PatchOperation}

/-- **Operations that can be made directly give the files that the patch asks for.** -/
theorem shows_of_applyDirectly (hseparate : Separate ctx disk named)
    (hnamed : ∀ operation ∈ operations, ∀ path ∈ operation.paths ctx, path ∈ named)
    (h : Shows ctx disk named view current)
    (hview : requestedFrom ctx disk operations view = some view')
    (hdirect : applyDirectly ctx current operations = some direct) :
    Shows ctx disk named view' direct ∧ Grown current direct := by
  induction operations generalizing current view with
  | nil =>
    cases hview
    cases hdirect
    exact ⟨h, .refl _⟩
  | cons operation rest ih =>
    obtain ⟨hpaths, hrest⟩ := forall_mem_cons.mp hnamed
    obtain ⟨effect, heffect, hview⟩ := bind_eq_some_iff.mp hview
    obtain ⟨effect', heffect', hcommits⟩ := bind_eq_some_iff.mp hdirect
    obtain ⟨next, hcommit, hrun⟩ := bind_eq_some_iff.mp hcommits
    obtain ⟨hloaded, htransfers⟩ := effect_transfer (h.loadsAlike hpaths) heffect
    rcases htransfers with hsame | ⟨hnone, -⟩
    · cases hsame.symm.trans heffect'
      have husable := usable_of_loaded hloaded hpaths
      have hshows := h.commitEffect hseparate husable hcommit
      obtain ⟨hfinal, hgrown⟩ := ih hrest hshows hview hrun
      refine ⟨hfinal, (grown_of_commitEffect (fun change hmem => ?_) hcommit).1.trans hgrown⟩
      exact h.links.plain (hseparate.plain _ (husable change hmem).1)
    · exact nomatch hnone.symm.trans heffect'

/-- Nothing stands in the way of a file that can be used. -/
def Accessible (ctx : ToolExecutionContext) (disk : Disk) (named : List PathBuf)
    (current : Disk) : Prop :=
  ∀ path, Usable ctx disk named path → current.Open (ctx.locate path)

section

variable (hwritable : ∀ path ∈ named, ctx.unwritable path = false)
  (hapart : ∀ path ∈ named, ∀ other ∈ named,
    ¬ FileTree.Above (ctx.locate path) (ctx.locate other))

include hwritable hapart

/-- The changes of an operation can be made if no path lies above another. -/
theorem Accessible.commitEffect (h : Accessible ctx disk named current)
    (husable : ∀ change ∈ effect, Usable ctx disk named change.1) :
    ∃ next, commitEffect ctx current effect = some next ∧ Accessible ctx disk named next := by
  induction effect generalizing current with
  | nil => exact ⟨current, rfl, h⟩
  | cons change rest ih =>
    obtain ⟨path, content⟩ := change
    obtain ⟨hpath, hrest⟩ := forall_mem_cons.mp husable
    rcases commitTextFile_cases ctx current path content with
      ⟨-, hrefused⟩ | ⟨next, hok, hcommitted⟩
    · exact absurd ⟨hwritable path hpath.1, h path hpath⟩ hrefused
    · have hnext : Accessible ctx disk named next := fun other hother =>
        hcommitted.stays _ (h other hother) fun _ =>
          ⟨hapart path hpath.1 other hother.1, hapart other hother.1 path hpath.1⟩
      unfold Tools.commitEffect
      rw [hok]
      exact ih hnext hrest

/-- **The operations can be made directly** if no path lies above another. -/
theorem exists_applyDirectly (hseparate : Separate ctx disk named)
    (hnamed : ∀ operation ∈ operations, ∀ path ∈ operation.paths ctx, path ∈ named)
    (h : Shows ctx disk named view current) (haccessible : Accessible ctx disk named current)
    (hview : requestedFrom ctx disk operations view = some view') :
    ∃ direct, applyDirectly ctx current operations = some direct := by
  induction operations generalizing current view with
  | nil => exact ⟨current, rfl⟩
  | cons operation rest ih =>
    obtain ⟨hpaths, hrest⟩ := forall_mem_cons.mp hnamed
    obtain ⟨effect, heffect, hview⟩ := bind_eq_some_iff.mp hview
    obtain ⟨hloaded, htransfers⟩ := effect_transfer (h.loadsAlike hpaths) heffect
    have husable := usable_of_loaded hloaded hpaths
    have hsame : operation.effect ctx (loadOptionalTextFile ctx current) = some effect := by
      rcases htransfers with hsame | ⟨-, path, hmem, ⟨content, hload⟩, error, herror⟩
      · exact hsame
      · obtain ⟨base, hbase, -⟩ := load_eq_ok hload
        have hpath : Usable ctx disk named path := ⟨hpaths path hmem, base, hbase⟩
        rcases h.load hpath with hok | ⟨-, hblocked⟩
        · exact nomatch hok.symm.trans herror
        · exact absurd (haccessible path hpath) hblocked
    obtain ⟨next, hcommit, hnext⟩ := haccessible.commitEffect hwritable hapart husable
    obtain ⟨direct, hdirect⟩ := ih hrest (h.commitEffect hseparate husable hcommit) hnext hview
    refine ⟨direct, ?_⟩
    unfold applyDirectly
    rw [hsame]
    change ((commitEffect ctx current effect).bind fun disk => applyDirectly ctx disk rest) = _
    rw [hcommit]
    exact hdirect

end

/-! ### The patch -/

theorem View.apply_of_not_mem
    (h : path ∉ effect.map Prod.fst) : view.apply effect path = view path := by
  induction effect generalizing view with
  | nil => rfl
  | cons change rest ih =>
    rw [map_cons, mem_cons, not_or] at h
    exact (ih h.2).trans (Function.update_of_ne h.1 _ _)

theorem View.apply_of_mem (hnodup : (effect.map Prod.fst).Nodup)
    (h : (path, content) ∈ effect) : view.apply effect path = content := by
  induction effect generalizing view with
  | nil => cases h
  | cons change rest ih =>
    obtain ⟨hfirst, hrest⟩ := nodup_cons.mp hnodup
    rcases mem_cons.mp h with rfl | hmem
    · exact (View.apply_of_not_mem hfirst).trans (Function.update_self _ _ _)
    · exact ih hrest hmem

theorem commitEffect_of_commitAll {entries : List StagedFile}
    (h : commitAll ctx current entries = (.ok (), next)) :
    commitEffect ctx current (entries.map fun entry => (entry.resolvedPath, entry.content)) =
      some next := by
  induction entries generalizing current with
  | nil => exact congrArg some (Prod.mk.inj h).2
  | cons entry rest ih =>
    unfold commitAll at h
    rw [map_cons, commitEffect]
    split at h
    · cases (Prod.mk.inj h).1
    next current' hok =>
      rw [hok]
      exact ih h

/-- The changed entries take the view of the disk to what the patch asks for. -/
theorem Represents.apply_changedEntries (h : Represents ctx disk staging.staged view) :
    (View.ofDisk ctx disk).apply (staging.changedEntries.map fun entry =>
      (entry.resolvedPath, entry.content)) = view := by
  funext path
  by_cases hchanges : Changes ctx disk view path
  · obtain ⟨entry, hmem, rfl⟩ := h.exists_changedEntries hchanges
    refine View.apply_of_mem ?_ (mem_map.mpr ⟨entry, hmem, ?_⟩)
    · rw [List.map_map]
      exact pairwise_map.mpr (h.pairwise_changedEntries.imp fun hlt => hlt.ne)
    · rw [(h.mem_changedEntries hmem).2.1]
  · refine (View.apply_of_not_mem fun hmem => ?_).trans (not_not.mp hchanges).symm
    rw [List.map_map] at hmem
    obtain ⟨entry, hentry, rfl⟩ := mem_map.mp hmem
    exact hchanges (h.mem_changedEntries hentry).2.2

/-- A patch asks for changes of the files that it names only. -/
theorem requestedFrom_of_not_mem (h : requestedFrom ctx disk operations view = some view')
    (hpath : path ∉ namedPaths ctx operations) : view' path = view path := by
  induction operations generalizing view with
  | nil => rw [← some.inj h]
  | cons operation rest ih =>
    rw [namedPaths, flatMap_cons, mem_append, not_or] at hpath
    obtain ⟨effect, heffect, hrest⟩ := bind_eq_some_iff.mp h
    refine (ih hrest hpath.2).trans (View.apply_of_not_mem fun hmem => hpath.1 ?_)
    obtain ⟨change, hchange, rfl⟩ := mem_map.mp hmem
    have hloaded := (effect_transfer (fun _ _ _ hok => .inl hok) heffect).1
    exact (hloaded change hchange).1

/-- The entries that are committed can be used. -/
theorem Represents.usable (h : Represents ctx disk staging.staged view)
    (hview : requested ctx disk operations = some view) :
    ∀ change ∈ staging.changedEntries.map fun entry => (entry.resolvedPath, entry.content),
      Usable ctx disk (namedPaths ctx operations) change.1 := by
  refine forall_mem_map.mpr fun entry hentry => ?_
  obtain ⟨hpending, -, hchanges⟩ := h.mem_changedEntries hentry
  refine ⟨?_, _, hpending.load⟩
  by_contra hunnamed
  exact hchanges (requestedFrom_of_not_mem hview hunnamed)

/-- Equal files, and one disk has only the directories it needs. -/
theorem node_eq_or_dir {disk' : Disk} (hfiles : ∀ place, disk'.fileAt place = direct.fileAt place)
    (hgrown' : Grown disk disk') (hgrown : Grown disk direct)
    (hdirs : ∀ place, disk'.node place = some .dir → disk.node place = some .dir ∨
      ∃ below, FileTree.Above place below ∧ (disk'.fileAt below).isSome = true)
    (place : List FileName) : disk'.node place = direct.node place ∨
      disk'.node place = none ∧ direct.node place = some .dir := by
  have hfile := hfiles place
  rcases hnode : disk'.node place with _ | _ | data | target
  · rcases hnode' : direct.node place with _ | _ | data | target
    · exact .inl rfl
    · exact .inr ⟨rfl, rfl⟩
    · simp [FileTree.fileAt, hnode, hnode'] at hfile
    · have hlink := (hgrown'.link place target).mpr ((hgrown.link place target).mp hnode')
      cases hnode.symm.trans hlink
  · left
    rcases hdirs place hnode with hdir | ⟨below, habove, hsome⟩
    · exact (hgrown.dir place hdir).symm
    · rw [hfiles] at hsome
      exact (FileTree.dir_of_fileAt habove hsome).symm
  · rw [FileTree.fileAt, hnode] at hfile
    exact Or.inl (FileTree.node_of_fileAt hfile.symm).symm
  · exact .inl ((hgrown.link place target).mpr ((hgrown'.link place target).mp hnode)).symm

theorem executePatchOperations_applied {toolName : String} {success : PatchSuccess}
    (h : executePatchOperations ctx toolName disk operations = (.ok (.applied success), next)) :
    ∃ (staging : Staging) (view : View), requested ctx disk operations = some view ∧
      Represents ctx disk staging.staged view ∧
      commitAll ctx disk staging.changedEntries = (.ok (), next) := by
  unfold executePatchOperations at h
  split at h
  · cases (Prod.mk.inj h).1
  · rcases stageOperations_requested ctx disk operations with
      ⟨halt, hstage, -⟩ | ⟨staging, view, hstage, hview, hrepresents⟩
    · rw [hstage] at h
      cases halt <;> cases (Prod.mk.inj h).1
    · rw [hstage] at h
      refine ⟨staging, view, hview, hrepresents, ?_⟩
      have hdisk := congrArg Prod.snd h
      rw [finishPatch_disk] at hdisk
      rcases hcommit : commitAll ctx disk staging.changedEntries with ⟨error | _, disk'⟩
      · simp only [finishPatch, hcommit] at h
        cases (Prod.mk.inj h).1
      · rw [hcommit] at hdisk
        exact congrArg _ hdisk

end

/-- **A patch and its operations made directly**, if no two paths lead to the same file and none
ends in a link: where the operations can be made one after the other the disks are the same, except
for further directories; and they can if no change is refused and no path lies above another. -/
theorem staged_patch_refines_direct (ctx : ToolExecutionContext) (toolName : String)
    (disk disk' : Disk) (operations : List PatchOperation) (success : PatchSuccess)
    (hunaliased : Unaliased ctx operations)
    (hplain : ∀ path ∈ namedPaths ctx operations, endsInLink ctx disk path = false)
    (h : executePatchOperations ctx toolName disk operations = (.ok (.applied success), disk')) :
    (∀ direct, applyDirectly ctx disk operations = some direct →
      ∀ place, disk'.node place = direct.node place ∨
        disk'.node place = none ∧ direct.node place = some .dir) ∧
    ((∀ path ∈ namedPaths ctx operations, ctx.unwritable path = false) →
      (∀ path ∈ namedPaths ctx operations, ∀ other ∈ namedPaths ctx operations,
        ¬ FileTree.Above (ctx.locate path) (ctx.locate other)) →
      ∃ direct, applyDirectly ctx disk operations = some direct) := by
  obtain ⟨staging, view, hview, hrepresents, hcommit⟩ := executePatchOperations_applied h
  have hnamed : ∀ operation ∈ operations, ∀ path ∈ operation.paths ctx,
      path ∈ namedPaths ctx operations :=
    fun operation hmem path hpath => mem_flatMap.mpr ⟨operation, hmem, hpath⟩
  have hseparate : Separate ctx disk (namedPaths ctx operations) := ⟨hunaliased, hplain⟩
  constructor
  · intro direct hdirect
    obtain ⟨hshows, hgrown⟩ := shows_of_applyDirectly hseparate hnamed shows_ofDisk hview hdirect
    have hcommits := commitEffect_of_commitAll hcommit
    have husable := hrepresents.usable hview
    have hshows' := shows_ofDisk.commitEffect hseparate husable hcommits
    rw [hrepresents.apply_changedEntries] at hshows'
    obtain ⟨hgrown', hdirs⟩ :=
      grown_of_commitEffect (fun change hmem => hplain _ (husable change hmem).1) hcommits
    refine node_eq_or_dir (hshows'.unique hshows) hgrown' hgrown fun place hdir => ?_
    refine (hdirs place hdir).imp_right ?_
    rintro ⟨change, hmem, hsome, habove⟩
    refine ⟨ctx.locate change.1, habove, ?_⟩
    have hcontent : view change.1 = change.2 := by
      obtain ⟨entry, hentry, rfl⟩ := mem_map.mp hmem
      exact (hrepresents.mem_changedEntries hentry).2.1.symm
    rw [hshows'.atNamed _ (husable change hmem), isSome_map, hcontent]
    exact hsome
  · intro hwritable hapart
    refine exists_applyDirectly hwritable hapart hseparate hnamed shows_ofDisk ?_ hview
    rintro path ⟨-, base, hload⟩
    exact (open_of_load hload).1

/-- A file made and moved: the patch leaves what its operations leave. -/
theorem moved_file_refines_direct :
    ∃ success direct, executePatchOperations rootWorkspace "patch_files" emptyDisk
        [writeFile "a" "1", .move "a" "b" none none none] = (.ok (.applied success),
          (executePatchOperations rootWorkspace "patch_files" emptyDisk
            [writeFile "a" "1", .move "a" "b" none none none]).2) ∧
      applyDirectly rootWorkspace emptyDisk [writeFile "a" "1", .move "a" "b" none none none] =
        some direct ∧
      ∀ place, (executePatchOperations rootWorkspace "patch_files" emptyDisk
          [writeFile "a" "1", .move "a" "b" none none none]).2.node place = direct.node place ∨
        (executePatchOperations rootWorkspace "patch_files" emptyDisk
          [writeFile "a" "1", .move "a" "b" none none none]).2.node place = none ∧
        direct.node place = some .dir := by
  have hsuccess : executePatchOperations rootWorkspace "patch_files" emptyDisk
      [writeFile "a" "1", .move "a" "b" none none none] = (.ok (.applied {
        operationCount := 2
        changedFiles := ["b"]
        checkpointId := none
        operations := [⟨1, "write", "Created a with 1 bytes", none, some "1"⟩,
          ⟨2, "move", "Moved a -> b", some "1", some "1"⟩] }),
        (executePatchOperations rootWorkspace "patch_files" emptyDisk
          [writeFile "a" "1", .move "a" "b" none none none]).2) :=
    Prod.ext (by decide +kernel) rfl
  obtain ⟨hsame, hexists⟩ := staged_patch_refines_direct rootWorkspace "patch_files" emptyDisk _
    [writeFile "a" "1", .move "a" "b" none none none] _ (by unfold Unaliased; decide +kernel)
    (by decide +kernel) hsuccess
  obtain ⟨direct, hdirect⟩ := hexists (by decide +kernel) (by decide +kernel)
  exact ⟨_, direct, hsuccess, hdirect, hsame direct hdirect⟩

/-- **What a patch does differently**: made directly, a deleted file leaves its directory behind,
and a file cannot be made below another one that is deleted later. -/
theorem staged_patch_differs_from_direct :
    (¬ PatchFails (executePatchOperations rootWorkspace "patch_files" emptyDisk
        [writeFile "a/b" "1", .delete "a/b" none none]).1 ∧
      (executePatchOperations rootWorkspace "patch_files" emptyDisk
        [writeFile "a/b" "1", .delete "a/b" none none]).2.node (namesOf "a") = none ∧
      (applyDirectly rootWorkspace emptyDisk
        [writeFile "a/b" "1", .delete "a/b" none none]).map (·.node (namesOf "a")) =
          some (some .dir)) ∧
    ¬ PatchFails (executePatchOperations rootWorkspace "patch_files" emptyDisk
        [writeFile "a" "1", writeFile "a/b" "2", .delete "a" none none]).1 ∧
      (executePatchOperations rootWorkspace "patch_files" emptyDisk
        [writeFile "a" "1", writeFile "a/b" "2", .delete "a" none none]).2.fileAt
          (namesOf "a/b") = some (.text "2") ∧
      (applyDirectly rootWorkspace emptyDisk
        [writeFile "a" "1", writeFile "a/b" "2", .delete "a" none none]).isNone = true := by
  decide +kernel

end Nanoclaw.Tools
