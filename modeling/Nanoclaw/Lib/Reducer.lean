import Mathlib.Data.List.Basic

/-!
# Reducers of Event Streams

A reducer reads a stream of inputs, each of which may be a failure of the transport, and emits
outputs. A step goes on, stops the reading early or fails; when the reading is over, one last
output is made of the state. `Reducer.read` is the reading with what it consumed and emitted,
`Reducer.stream` what a caller sees.
-/

/-- What a step decides. -/
inductive Verdict (σ ε : Type) where
  | next (state : σ)
  | stop (state : σ)
  | fail (error : ε)

structure Reducer (σ ι ε ω : Type) where
  step : σ → ι → List ω × Verdict σ ε
  finish : σ → ω

namespace Reducer

variable {σ ι ε ω : Type}

/-- What a reading consumed and emitted, and the state or the error it ended with. -/
structure Reading (σ ι ε ω : Type) where
  consumed : List ι
  emitted : List ω
  ending : Except ε σ

def read (r : Reducer σ ι ε ω) : σ → List (Except ε ι) → Reading σ ι ε ω
  | s, [] => ⟨[], [], .ok s⟩
  | _, .error e :: _ => ⟨[], [], .error e⟩
  | s, .ok i :: rest =>
    match r.step s i with
    | (out, .next s') =>
      let reading := r.read s' rest
      ⟨i :: reading.consumed, out ++ reading.emitted, reading.ending⟩
    | (out, .stop s') => ⟨[i], out, .ok s'⟩
    | (out, .fail e) => ⟨[i], out, .error e⟩

/-- The stream that a caller sees. -/
def stream (r : Reducer σ ι ε ω) (s : σ) (inputs : List (Except ε ι)) : List (Except ε ω) :=
  let reading := r.read s inputs
  reading.emitted.map .ok ++ [reading.ending.map r.finish]

variable {r : Reducer σ ι ε ω} {s s' : σ} {out : List ω} {i : ι}

theorem read_next (h : r.step s i = (out, .next s'))
    (rest : List (Except ε ι)) : r.read s (.ok i :: rest) =
      ⟨i :: (r.read s' rest).consumed, out ++ (r.read s' rest).emitted,
        (r.read s' rest).ending⟩ := by
  rw [read, h]

theorem read_stop (h : r.step s i = (out, .stop s'))
    (rest : List (Except ε ι)) : r.read s (.ok i :: rest) = ⟨[i], out, .ok s'⟩ := by
  rw [read, h]

theorem read_fail {e : ε} (h : r.step s i = (out, .fail e))
    (rest : List (Except ε ι)) : r.read s (.ok i :: rest) = ⟨[i], out, .error e⟩ := by
  rw [read, h]

variable {inputs : List (Except ε ι)} {last : σ}

/-- **Induction over the readings that do not fail.** -/
theorem accepted_induction {P : σ → List ι → List ω → σ → Prop} (hend : ∀ s, P s [] [] s)
    (hstop : ∀ s i out s', r.step s i = (out, .stop s') → P s [i] out s')
    (hnext : ∀ s i out s' consumed emitted last, r.step s i = (out, .next s') →
      P s' consumed emitted last → P s (i :: consumed) (out ++ emitted) last)
    (h : (r.read s inputs).ending = .ok last) :
    P s (r.read s inputs).consumed (r.read s inputs).emitted last := by
  induction inputs generalizing s with
  | nil => exact Except.ok.inj h ▸ hend s
  | cons input rest ih =>
    cases input with
    | error e => cases h
    | ok i =>
      rcases hstep : r.step s i with ⟨out, s' | s' | e⟩
      · rw [read_next hstep] at h ⊢
        exact hnext s i out s' _ _ _ hstep (ih h)
      · rw [read_stop hstep] at h ⊢
        exact Except.ok.inj h ▸ hstop s i out s' hstep
      · rw [read_fail hstep] at h
        cases h

theorem emitted_forall {Q : ω → Prop} (hstep : ∀ s i, ∀ o ∈ (r.step s i).1, Q o) : ∀ o ∈
    (r.read s inputs).emitted, Q o := by
  induction inputs generalizing s with
  | nil => intro o ho; cases ho
  | cons input rest ih =>
    cases input with
    | error e => intro o ho; cases ho
    | ok i =>
      have hfirst := hstep s i
      rcases hverdict : r.step s i with ⟨out, s' | s' | e⟩ <;> rw [hverdict] at hfirst
      · rw [read_next hverdict]
        exact List.forall_mem_append.mpr ⟨hfirst, ih⟩
      · rwa [read_stop hverdict]
      · rwa [read_fail hverdict]

/-! ### Where a reading stops -/

/-- The inputs up to the first one at which the reading stops, and that one. -/
def upTo (stops : ι → Bool) : List (Except ε ι) → List ι
  | [] => []
  | .error _ :: _ => []
  | .ok i :: rest => if stops i then [i] else i :: upTo stops rest

/-- No input up to the stop is a failure of the transport or one at which a reading fails. -/
def readable (stops fails : ι → Bool) : List (Except ε ι) → Bool
  | [] => true
  | .error _ :: _ => false
  | .ok i :: rest => !fails i && (stops i || readable stops fails rest)

/-- The verdict on an input that stops a reading, makes it fail, or neither. -/
def Fits (stops fails : Bool) : Verdict σ ε → Prop
  | .next _ => stops = false ∧ fails = false
  | .stop _ => stops = true ∧ fails = false
  | .fail _ => True

/-- The inputs decide where the reducer stops, and it fails at the given ones. -/
def Decides (r : Reducer σ ι ε ω) (stops fails : ι → Bool) : Prop :=
  ∀ s i, Fits (stops i) (fails i) (r.step s i).2

variable {stops fails : ι → Bool}

section

variable (hr : r.Decides stops fails)

include hr

theorem Decides.fits {verdict : Verdict σ ε}
    (h : r.step s i = (out, verdict)) : Fits (stops i) (fails i) verdict := by
  have hfits := hr s i
  rw [h] at hfits
  exact hfits

/-- A reading that does not fail consumes the readable inputs up to the stop. -/
theorem Decides.accepted (h : (r.read s inputs).ending = .ok last) :
    (r.read s inputs).consumed = upTo stops inputs ∧ readable stops fails inputs = true := by
  induction inputs generalizing s with
  | nil => exact ⟨rfl, rfl⟩
  | cons input rest ih =>
    cases input with
    | error e => cases h
    | ok i =>
      rcases hstep : r.step s i with ⟨out, s' | s' | e⟩
      · obtain ⟨hstops, hfails⟩ := hr.fits hstep
        rw [read_next hstep] at h ⊢
        rw [upTo, readable, hstops, hfails, (ih h).1, (ih h).2]
        exact ⟨rfl, rfl⟩
      · obtain ⟨hstops, hfails⟩ := hr.fits hstep
        rw [read_stop hstep, upTo, readable, hstops, hfails]
        exact ⟨rfl, rfl⟩
      · rw [read_fail hstep] at h
        cases h

/-- **The readings that do not fail**, if the reducer may fail at other inputs as well. -/
theorem Decides.accepted_of_readable (Safe : σ → List ι → Prop)
    (hnext : ∀ s i out s' rest, r.step s i = (out, .next s') → Safe s (i :: rest) → Safe s' rest)
    (hfail : ∀ s i out e rest, r.step s i = (out, .fail e) → Safe s (i :: rest) → fails i = true)
    (hreadable : readable stops fails inputs = true) (hsafe : Safe s (upTo stops inputs)) :
    ∃ last, (r.read s inputs).ending = .ok last := by
  induction inputs generalizing s with
  | nil => exact ⟨s, rfl⟩
  | cons input rest ih =>
    cases input with
    | error e => cases hreadable
    | ok i =>
      rcases hstep : r.step s i with ⟨out, s' | s' | e⟩
      · obtain ⟨hstops, hfails⟩ := hr.fits hstep
        rw [readable, hfails, hstops] at hreadable
        rw [upTo, hstops] at hsafe
        rw [read_next hstep]
        exact ih hreadable (hnext s i out s' _ hstep hsafe)
      · rw [read_stop hstep]
        exact ⟨s', rfl⟩
      · obtain ⟨tail, htail⟩ : ∃ tail, upTo stops (.ok i :: rest) = i :: tail := by
          rw [upTo]
          cases stops i <;> exact ⟨_, rfl⟩
        rw [htail] at hsafe
        rw [readable, hfail s i out e tail hstep hsafe] at hreadable
        cases hreadable

theorem Decides.accepted_iff_readable
    (hfail : ∀ s i out e, r.step s i = (out, .fail e) → fails i = true) :
    (∃ last, (r.read s inputs).ending = .ok last) ↔ readable stops fails inputs = true :=
  ⟨fun ⟨_, hlast⟩ => (hr.accepted hlast).2, fun h => hr.accepted_of_readable
    (fun _ _ => True) (fun _ _ _ _ _ _ _ => trivial)
    (fun s i out e _ hstep _ => hfail s i out e hstep) h trivial⟩

end

/-! ### Inputs that carry payloads -/

/-- What an input comes to. -/
inductive Decoded (κ ε : Type) where
  | stop
  | skip
  | bad (error : ε)
  | payload (payload : κ)

variable {κ : Type}

def Decoded.payload? : Decoded κ ε → Option κ
  | .payload k => some k
  | _ => none

variable (decode : ι → Decoded κ ε) (inner : Reducer σ κ ε ω)

/-- Read the payloads of the inputs. -/
def comap : Reducer σ ι ε ω where
  step s i := match decode i with
    | .stop => ([], .stop s)
    | .skip => ([], .next s)
    | .bad e => ([], .fail e)
    | .payload k => inner.step s k
  finish := inner.finish

def payloads : List (Except ε ι) → List (Except ε κ)
  | [] => []
  | .error e :: _ => [.error e]
  | .ok i :: rest => match decode i with
    | .stop => []
    | .skip => payloads rest
    | .bad e => [.error e]
    | .payload k => .ok k :: payloads rest

/-- **A reading of the inputs is a reading of the payloads.** -/
theorem read_comap (s : σ) (inputs : List (Except ε ι)) :
    ((inner.comap decode).read s inputs).consumed.filterMap (fun i => (decode i).payload?) =
        (inner.read s (payloads decode inputs)).consumed ∧
      ((inner.comap decode).read s inputs).emitted =
        (inner.read s (payloads decode inputs)).emitted ∧
      ((inner.comap decode).read s inputs).ending =
        (inner.read s (payloads decode inputs)).ending := by
  induction inputs generalizing s with
  | nil => exact ⟨rfl, rfl, rfl⟩
  | cons input rest ih =>
    cases input with
    | error e => exact ⟨rfl, rfl, rfl⟩
    | ok i =>
      cases hdecode : decode i with
      | stop => simp [read, comap, payloads, hdecode, Decoded.payload?]
      | skip => simpa [read, comap, payloads, hdecode, Decoded.payload?] using ih s
      | bad e => simp [read, comap, payloads, hdecode, Decoded.payload?]
      | payload k =>
        have hstep : (inner.comap decode).step s i = inner.step s k := by simp only [comap, hdecode]
        have hcons (is : List ι) : (i :: is).filterMap (fun i => (decode i).payload?) =
            k :: is.filterMap _ := List.filterMap_cons_some (congrArg _ hdecode)
        rcases hinner : inner.step s k with ⟨out, s' | s' | e⟩
        · simp [read, hstep, payloads, hdecode, hcons, hinner, ih s']
        · simp [read, hstep, payloads, hdecode, hcons, hinner]
        · simp [read, hstep, payloads, hdecode, hcons, hinner]

end Reducer
