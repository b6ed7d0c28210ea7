import Mathlib.Data.List.Forall2

/-!
# Programs with State and Early Exit

A method that takes a mutable receiver and returns a result type is a program `Proc σ ε α`: it
reads and writes a state `σ` and returns a value or leaves early with an error. The state written
before an early exit is kept.

`Proc.Triple P m Q E` is its specification: started in a state with `P`, the program ends in a
state related by `Q` to the value it returns or by `E` to its error. `Proc.Preserves I` keeps `I`
on both exits.
-/

/-- A program over `σ` that returns an `α` or exits with an `ε`; the state survives. -/
abbrev Proc (σ ε α : Type) : Type :=
  ExceptT ε (StateM σ) α

namespace Proc

open List

variable {σ ε α β : Type}

/-- Run a program from a state. -/
def exec (m : Proc σ ε α) (s : σ) : Except ε α × σ :=
  m.run.run s

@[simp] theorem exec_pure (a : α) (s : σ) : exec (pure a : Proc σ ε α) s = (.ok a, s) := rfl

@[simp] theorem exec_throw (e : ε) (s : σ) : exec (throw e : Proc σ ε α) s = (.error e, s) := rfl

@[simp] theorem exec_get (s : σ) : exec (get : Proc σ ε σ) s = (.ok s, s) := rfl

@[simp] theorem exec_modify (g : σ → σ) (s : σ) :
    exec (modify g : Proc σ ε PUnit) s = (.ok ⟨⟩, g s) := rfl

/-- Sequencing goes on from the state that was left, unless it exits. -/
theorem exec_bind (m : Proc σ ε α) (f : α → Proc σ ε β) (s : σ) :
    exec (m >>= f) s = match exec m s with
      | (.ok a, s') => exec (f a) s'
      | (.error e, s') => (.error e, s') := by
  simp only [exec, ExceptT.run_bind, StateT.run_bind]
  rcases m.run.run s with ⟨_ | _, s'⟩ <;> rfl

variable {m : Proc σ ε α} {s s' : σ} {e : ε} {x : Except ε α} {b : β} {xs : List α} {bs : List β}
  {a : α}

theorem exec_bind_ok {f : α → Proc σ ε β} (h : exec m s = (.ok a, s')) :
    exec (m >>= f) s = exec (f a) s' := by
  rw [exec_bind, h]

variable {f : α → Except ε β}

/-- A sequence of results is a success exactly if both parts are. -/
theorem except_bind_eq_ok : x >>= f = .ok b ↔ ∃ a, x = .ok a ∧ f a = .ok b := by
  cases x with
  | error e => exact ⟨nofun, nofun⟩
  | ok a => exact ⟨fun h => ⟨a, rfl, h⟩, by rintro ⟨_, ⟨⟩, h⟩; exact h⟩

/-- What every step of a fallible loop keeps holds of its result. -/
theorem except_foldlM_ok {J : β → Prop} {f : β → α → Except ε β} {xs : List α} {b b' : β}
    (hf : ∀ b, ∀ x ∈ xs, ∀ b', J b → f b x = .ok b' → J b') (hb : J b)
    (h : xs.foldlM f b = .ok b') : J b' := by
  induction xs generalizing b with
  | nil =>
    cases h
    exact hb
  | cons x xs ih =>
    obtain ⟨hx, hxs⟩ := forall_mem_cons.mp fun x hx b => hf b x hx
    obtain ⟨c, hc, h⟩ := except_bind_eq_ok.mp h
    exact ih (fun b x hmem => hxs x hmem b) (hx b c hb hc) h

/-- A traversal succeeds if every visit does. -/
theorem except_mapM_ok (xs : List α) (h : ∀ x ∈ xs, ∃ b, f x = .ok b) :
    ∃ bs, xs.mapM f = .ok bs := by
  induction xs with
  | nil => exact ⟨[], rfl⟩
  | cons x xs ih =>
    obtain ⟨⟨b, hb⟩, hxs⟩ := forall_mem_cons.mp h
    obtain ⟨bs, hbs⟩ := ih hxs
    exact ⟨b :: bs, by rw [mapM_cons, hb, hbs]; rfl⟩

/-- A traversal that succeeds everywhere collects the values. -/
theorem except_mapM_eq {g : α → β} (h : ∀ x ∈ xs, f x = .ok (g x)) :
    xs.mapM f = .ok (xs.map g) := by
  induction xs with
  | nil => rfl
  | cons x xs ih =>
    obtain ⟨hx, hxs⟩ := forall_mem_cons.mp h
    rw [mapM_cons, hx, ih hxs]
    rfl

variable {γ : Type} {g : σ → σ}

/-- The values of a traversal may be changed on the way or at the end. -/
theorem except_mapM_map (f : α → Except ε β) (g : β → γ) (xs : List α) :
    (xs.mapM fun x => (f x).map g) = (xs.mapM f).map (map g) := by
  induction xs with
  | nil => rfl
  | cons x xs ih =>
    rw [mapM_cons, mapM_cons, ih]
    cases f x with
    | error e => rfl
    | ok b => cases xs.mapM f <;> rfl

section

variable (h : xs.mapM f = .ok bs)

include h

/-- A traversal that succeeded has one value for each visit. -/
theorem except_mapM_forall₂ : Forall₂ (fun x b => f x = .ok b) xs bs := by
  induction xs generalizing bs with
  | nil =>
    cases h
    exact .nil
  | cons x xs ih =>
    rw [mapM_cons] at h
    obtain ⟨c, hc, h⟩ := except_bind_eq_ok.mp h
    obtain ⟨cs, hcs, h⟩ := except_bind_eq_ok.mp h
    cases h
    exact .cons hc (ih hcs)

/-- What a traversal that succeeded has collected. -/
theorem mem_except_mapM : b ∈ bs ↔ ∃ x ∈ xs, f x = .ok b := by
  have hall := except_mapM_forall₂ h
  clear h
  induction hall with
  | nil => simp
  | cons hx _ ih => simp [hx, ih, eq_comm]

/-- A traversal that succeeded has succeeded everywhere. -/
theorem exists_of_except_mapM {x : α} (hx : x ∈ xs) : ∃ b ∈ bs, f x = .ok b := by
  have hall := except_mapM_forall₂ h
  clear h
  induction hall with
  | nil => cases hx
  | cons hy _ ih =>
    rcases mem_cons.mp hx with rfl | hx
    · exact ⟨_, mem_cons_self, hy⟩
    · exact (ih hx).imp fun _ => .imp_left (mem_cons_of_mem _)

end

/-! ### Specifications -/

/-- **Specification**: from `P`, a return with `a` gives `Q a` and an exit with `e` gives `E e`. -/
def Triple (P : σ → Prop) (m : Proc σ ε α) (Q : α → σ → Prop) (E : ε → σ → Prop) : Prop :=
  ∀ s, P s → match exec m s with
    | (.ok a, s') => Q a s'
    | (.error e, s') => E e s'

/-- The invariant `I` survives the program, whichever way it ends. -/
abbrev Preserves (I : σ → Prop) (m : Proc σ ε α) : Prop :=
  Triple I m (fun _ => I) (fun _ => I)

namespace Triple

variable {P P' : σ → Prop} {Q Q' : α → σ → Prop} {E E' : ε → σ → Prop} {R : β → σ → Prop}

/-- What a triple says about a program that returned. -/
theorem of_ok (h : Triple P m Q E) {s s' : σ} (hs : P s) (hr : exec m s = (.ok a, s')) :
    Q a s' := by
  have := h s hs
  rwa [hr] at this

/-- What a triple says about a program that exited. -/
theorem of_error (h : Triple P m Q E) {s s' : σ} (hs : P s)
    (hr : exec m s = (.error e, s')) : E e s' := by
  have := h s hs
  rwa [hr] at this

theorem pure (h : ∀ s, P s → Q a s) : Triple P (Pure.pure a : Proc σ ε α) Q E :=
  h

theorem throw (h : ∀ s, P s → E e s) : Triple P (MonadExcept.throw e : Proc σ ε α) Q E :=
  h

theorem get {Q : σ → σ → Prop} (h : ∀ s, P s → Q s s) :
    Triple P (MonadState.get : Proc σ ε σ) Q E :=
  h

theorem modify {Q : PUnit → σ → Prop} (h : ∀ s, P s → Q ⟨⟩ (g s)) :
    Triple P (modify g : Proc σ ε PUnit) Q E :=
  h

/-- Every program meets the specification that says nothing. -/
theorem trivial (m : Proc σ ε α) : Triple P m (fun _ _ => True) (fun _ _ => True) := by
  intro s _
  rcases exec m s with ⟨_ | _, _⟩ <;> exact .intro

/-- A fact that is not about the state survives every program. -/
theorem fact {p : Prop} (m : Proc σ ε α) :
    Triple (fun _ => p) m (fun _ _ => p) (fun _ _ => True) := by
  intro s hp
  rcases exec m s with ⟨_ | _, _⟩
  · exact .intro
  · exact hp

/-- A fact that is not about the state is known to the program. -/
theorem of_fact {p : Prop} (h : p → Triple P m Q E) : Triple (fun s => p ∧ P s) m Q E :=
  fun s hs => h hs.1 s hs.2

/-- **Consequence.** -/
theorem conseq (h : Triple P' m Q' E') (hP : ∀ s, P s → P' s) (hQ : ∀ a s, Q' a s → Q a s)
    (hE : ∀ e s, E' e s → E e s) : Triple P m Q E := by
  intro s hs
  have := h s (hP s hs)
  rcases hm : exec m s with ⟨_ | _, s'⟩ <;> rw [hm] at this
  · exact hE _ _ this
  · exact hQ _ _ this

theorem pre (h : Triple P' m Q E) (hP : ∀ s, P s → P' s) : Triple P m Q E :=
  fun s hs => h s (hP s hs)

theorem post (h : Triple P m Q' E') (hQ : ∀ a s, Q' a s → Q a s) (hE : ∀ e s, E' e s → E e s) :
    Triple P m Q E :=
  h.conseq (fun _ h => h) hQ hE

theorem result (h : Triple P m Q' E) (hQ : ∀ a s, Q' a s → Q a s) : Triple P m Q E :=
  h.post hQ fun _ _ h => h

theorem exits (h : Triple P m Q E') (hE : ∀ e s, E' e s → E e s) : Triple P m Q E :=
  h.post (fun _ _ h => h) hE

/-- The state in which the program ends, on either exit. -/
theorem state_iff {F : σ → Prop} :
    Triple P m (fun _ => F) (fun _ => F) ↔ ∀ s, P s → F (exec m s).2 := by
  refine forall₂_congr fun s _ => ?_
  rcases exec m s with ⟨_ | _, _⟩ <;> rfl

/-- **Conjunction.** -/
theorem and (h : Triple P m Q E) (h' : Triple P' m Q' E') :
    Triple (fun s => P s ∧ P' s) m (fun a s => Q a s ∧ Q' a s) (fun e s => E e s ∧ E' e s) := by
  intro s hs
  have h₁ := h s hs.1
  have h₂ := h' s hs.2
  rcases hm : exec m s with ⟨_ | _, s'⟩ <;> rw [hm] at h₁ h₂
  all_goals exact ⟨h₁, h₂⟩

/-- **Sequencing.** -/
theorem bind {m : Proc σ ε β} {f : β → Proc σ ε α} (hm : Triple P m R E)
    (hf : ∀ b, Triple (R b) (f b) Q E) : Triple P (m >>= f) Q E := by
  intro s hs
  have h₁ := hm s hs
  rw [exec_bind]
  rcases hms : exec m s with ⟨e | b, s'⟩ <;> rw [hms] at h₁
  · exact h₁
  · exact hf b s' h₁

/-- **Iteration** advances an assertion indexed by the elements still to visit. -/
theorem forM {J : List γ → σ → Prop} {f : γ → Proc σ ε PUnit} (xs : List γ)
    (hf : ∀ x rest, Triple (J (x :: rest)) (f x) (fun _ => J rest) E) :
    Triple (J xs) (xs.forM f) (fun _ => J []) E := by
  induction xs with
  | nil => exact .pure fun s hs => hs
  | cons x rest ih => exact (hf x rest).bind fun _ => ih

/-- **Folding.** An assertion indexed by the elements visited so far. -/
theorem foldlM {J : List γ → β → σ → Prop} {f : β → γ → Proc σ ε β} (xs : List γ)
    (hf : ∀ done x b, Triple (J done b) (f b x) (J (done ++ [x])) E) (b : β) :
    Triple (J [] b) (xs.foldlM f b) (J xs) E := by
  suffices h : ∀ done b, Triple (J done b) (xs.foldlM f b) (J (done ++ xs)) E from h [] b
  induction xs with
  | nil =>
    intro done b
    rw [append_nil]
    exact .pure fun s hs => hs
  | cons x rest ih =>
    intro done b
    rw [← singleton_append, ← append_assoc]
    exact (hf done x b).bind fun b' => ih (done ++ [x]) b'

/-- A specification at one of the states it covers. -/
theorem at_state (h : Triple P m Q E) {t : σ} (ht : P t) : Triple (fun s => s = t) m Q E :=
  h.pre fun _ hs => hs ▸ ht

/-- A program may be specified from one state at a time. -/
theorem of_state (h : ∀ t, P t → Triple (fun s => s = t) m Q E) : Triple P m Q E :=
  fun s hs => h s hs s rfl

/-- Reading the state hands its value to the rest of the program. -/
theorem get_bind {f : σ → Proc σ ε α}
    (hf : ∀ t, P t → Triple (fun s => s = t) (f t) Q E) : Triple P (MonadState.get >>= f) Q E := by
  refine .bind (R := fun t s => s = t ∧ P t) (.get fun s hs => ⟨rfl, hs⟩) ?_
  intro t s ht
  obtain ⟨rfl, ht⟩ := ht
  exact hf s ht s rfl

end Triple

/-- The program never exits with an error, and `Q` holds of what it returns. -/
abbrev Returns (Q : α → Prop) (m : Proc σ ε α) : Prop :=
  Triple (fun _ => True) m (fun a _ => Q a) (fun _ _ => False)

namespace Returns

variable {Q : α → Prop} {R : β → Prop}

theorem pure (h : Q a) : Returns Q (Pure.pure a : Proc σ ε α) :=
  Triple.pure fun _ _ => h

theorem get : Returns (fun _ => True) (MonadState.get : Proc σ ε σ) :=
  Triple.get fun _ h => h

theorem modify (g : σ → σ) : Returns (fun _ => True) (modify g : Proc σ ε PUnit) :=
  Triple.modify fun _ h => h

theorem bind {m : Proc σ ε β} {f : β → Proc σ ε α} (hm : Returns R m)
    (hf : ∀ b, R b → Returns Q (f b)) : Returns Q (m >>= f) :=
  Triple.bind hm fun b _ hb => hf b hb _ trivial

theorem forM {f : γ → Proc σ ε PUnit} (xs : List γ) (hf : ∀ x ∈ xs, Returns (fun _ => True) (f x)) :
    Returns (fun _ => True) (xs.forM f) := by
  induction xs with
  | nil => exact pure trivial
  | cons x xs ih =>
    obtain ⟨hx, hxs⟩ := forall_mem_cons.mp hf
    exact bind hx fun _ _ => ih hxs

theorem foldlM {f : α → γ → Proc σ ε α} (xs : List γ) (hf : ∀ a, ∀ x ∈ xs, Q a → Returns Q (f a x))
    (ha : Q a) : Returns Q (xs.foldlM f a) := by
  induction xs generalizing a with
  | nil => exact pure ha
  | cons x xs ih =>
    refine bind (hf a x mem_cons_self ha) fun b hb => ?_
    exact ih (fun b y hy => hf b y (mem_cons_of_mem _ hy)) hb

/-- What holds whenever the program returns holds of a program that returns. -/
theorem and_triple {P : σ → Prop} {S : α → σ → Prop} {E E' : ε → σ → Prop} (hm : Returns Q m)
    (h : Triple P m S E) : Triple P m (fun a s => Q a ∧ S a s) E' :=
  ((Triple.and hm h).pre fun _ hs => ⟨trivial, hs⟩).exits fun _ _ hs => hs.1.elim

end Returns

namespace Preserves

variable {I : σ → Prop}

theorem pure (a : α) : Preserves I (Pure.pure a : Proc σ ε α) :=
  Triple.pure fun _ hs => hs

theorem throw (e : ε) : Preserves I (MonadExcept.throw e : Proc σ ε α) :=
  Triple.throw fun _ hs => hs

theorem modify (h : ∀ s, I s → I (g s)) : Preserves I (modify g : Proc σ ε PUnit) :=
  Triple.modify h

theorem bind {m : Proc σ ε β} {f : β → Proc σ ε α} (hm : Preserves I m)
    (hf : ∀ b, Preserves I (f b)) : Preserves I (m >>= f) :=
  Triple.bind hm hf

theorem forM {f : γ → Proc σ ε PUnit} (xs : List γ) (hf : ∀ x, Preserves I (f x)) :
    Preserves I (xs.forM f) :=
  Triple.forM (J := fun _ => I) xs fun x _ => hf x

theorem foldlM {f : β → γ → Proc σ ε β} (xs : List γ) (hf : ∀ b x, Preserves I (f b x)) (b : β) :
    Preserves I (xs.foldlM f b) :=
  Triple.foldlM (J := fun _ _ => I) xs (fun _ x b => hf b x) b

/-- Reading the state: the rest may depend on it. -/
theorem get_bind {f : σ → Proc σ ε α} (hf : ∀ s, Preserves I (f s)) :
    Preserves I (MonadState.get >>= f) :=
  Triple.bind (R := fun _ => I) (Triple.get fun _ hs => hs) hf

end Preserves

end Proc
