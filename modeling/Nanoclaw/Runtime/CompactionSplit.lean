import Nanoclaw.Runtime.Compaction

/-!
# Where a Compaction Splits the History

`selectCompactionSplitIndex` walks back four times: to a round start, over whole rounds until the
tail meets the context floor, to the calls of the tool results in the tail, and to a round start
again. The second walk gives up where the earliest round start falls short of the floor, and the
last one undoes what the third has established.
-/

namespace Nanoclaw

open List

variable {messages : List Message} {floor : ContextFloor} {splitAt fuel start s : ℕ}

theorem drop_eq_messagesBetween (h : start ≤ splitAt) :
    messages.drop start = messagesBetween messages start splitAt ++ messages.drop splitAt := by
  have htail := drop_take_append_drop messages start (splitAt - start)
  rw [Nat.add_sub_cancel' h] at htail
  rw [messagesBetween, drop_take, htail]

/-- The walk ends at the last round start, or at the first message. -/
theorem startsRequestRound_requestRoundStart (h : 2 ≤ requestRoundStart messages splitAt) :
    startsRequestRound messages (requestRoundStart messages splitAt) = true :=
  (requestRoundStart_eq_self.mp (requestRoundStart_requestRoundStart ..)).resolve_left (by omega)

theorem alignSplitAt_eq_some_iff : alignSplitAtToRequestRoundBoundary messages splitAt = some s ↔
      2 ≤ s ∧ requestRoundStart messages splitAt = s := by
  simp only [alignSplitAtToRequestRoundBoundary]
  split
  · rw [Option.some.injEq]
    exact ⟨fun h => ⟨h ▸ ‹_›, h⟩, And.right⟩
  · exact iff_of_false nofun fun ⟨hs, heq⟩ => absurd (heq ▸ hs) ‹_›

/-! ### The context floor -/

/-- The tail **meets the floor**; a short history is held to none. -/
def MeetsFloor (floor : ContextFloor) (messages : List Message) (p : ℕ) : Prop :=
  estimateMessagesTokens messages < floor.minTokens ∨
    floor.minTokens ≤ estimateMessagesTokens (messages.drop p) ∧
      floor.minTextMessages ≤ countTextMessages (messages.drop p)

/-- A round start that meets the floor, or before which no split is. -/
def FloorSplit (floor : ContextFloor) (messages : List Message) (p : ℕ) : Prop :=
  2 ≤ p ∧ startsRequestRound messages p = true ∧ (p = 2 ∨ MeetsFloor floor messages p)

theorem expandRetainedTailLoop_eq_some (hlarge : floor.minTokens ≤ estimateMessagesTokens messages)
    (hfuel : splitAt ≤ fuel) (htwo : 2 ≤ splitAt)
    (hround : startsRequestRound messages splitAt = true) :
    expandRetainedTailLoop floor messages fuel splitAt
        (estimateMessagesTokens (messages.drop splitAt))
        (countTextMessages (messages.drop splitAt)) = some s ↔
      LastUpTo (FloorSplit floor messages) splitAt s := by
  induction fuel generalizing splitAt with
  | zero => omega
  | succ fuel ih =>
    rw [expandRetainedTailLoop]
    split
    next h =>
      have hnot : ¬FloorSplit floor messages splitAt := by
        unfold FloorSplit MeetsFloor
        omega
      cases hprev : previousRequestRoundStart messages splitAt with
      | none =>
        refine none_eq_some_iff_lastUpTo fun p hp hfloor => find?_eq_none.mp hprev p ?_ hfloor.2.1
        have hne : p ≠ splitAt := fun heq => hnot (heq ▸ hfloor)
        exact mem_reverse.mpr (mem_range'_1.mpr ⟨hfloor.1, by omega⟩)
      | some start =>
        have hstart := mem_range'_1.mp (mem_reverse.mp (mem_of_find?_eq_some hprev))
        rw [lastUpTo_skip (by omega : start ≤ splitAt) fun p hp hfloor => ?_,
          ← ih (by omega) hstart.1 (find?_some hprev),
          drop_eq_messagesBetween (by omega : start ≤ splitAt)]
        · simp only [estimateMessagesTokens, countTextMessages, map_append, sum_append,
            countP_append, add_comm]
        · have hne : p ≠ splitAt := fun heq => hnot (heq ▸ hfloor)
          exact le_of_find?_reverse_range' hprev hfloor.1 (by omega) hfloor.2.1
    next h => exact some_eq_some_iff_lastUpTo ⟨htwo, hround, by unfold MeetsFloor; omega⟩

/-- **The expansion** ends at the last position at which it may, if there is one. -/
theorem expandRetainedTail_eq_some_iff (htwo : 2 ≤ splitAt)
    (hround : startsRequestRound messages splitAt = true) :
    expandRetainedTailForContextFloor floor messages splitAt = some s ↔
      LastUpTo (FloorSplit floor messages) splitAt s := by
  unfold expandRetainedTailForContextFloor
  split
  next h => exact some_eq_some_iff_lastUpTo ⟨htwo, hround, .inr (.inl h)⟩
  next h => exact expandRetainedTailLoop_eq_some (not_lt.mp h) le_rfl htwo hround

/-- **What the expansion is for**: a split at a round start that is not later, the first one back
that meets the floor, or the earliest if none does. -/
def FloorKept (floor : ContextFloor) (messages : List Message) (splitAt : ℕ) : Prop :=
  ∃ s, expandRetainedTailForContextFloor floor messages splitAt = some s ∧
    2 ≤ s ∧ s ≤ splitAt ∧ startsRequestRound messages s = true ∧
    (∀ p, s < p → p ≤ splitAt → startsRequestRound messages p = true →
      ¬MeetsFloor floor messages p) ∧
    (MeetsFloor floor messages s ∨ ∀ p, 2 ≤ p → startsRequestRound messages p = true → s ≤ p)

/-- **The context floor leaves a split** exactly if some earlier round start meets it or is
third. -/
theorem context_floor_keeps_split (floor : ContextFloor) (messages : List Message) (splitAt : ℕ)
    (htwo : 2 ≤ splitAt) (hround : startsRequestRound messages splitAt = true) :
    FloorKept floor messages splitAt ↔ ∃ p ≤ splitAt, FloorSplit floor messages p := by
  constructor
  · rintro ⟨s, hs, -⟩
    exact ⟨s, ((expandRetainedTail_eq_some_iff htwo hround).mp hs).1⟩
  · intro h
    obtain ⟨s, hs⟩ := BddAbove.exists_isGreatest_of_nonempty ⟨_, fun _ hj => hj.1⟩ h
    have ⟨⟨hle, htwo', hround', hend⟩, hlast⟩ := hs
    refine ⟨s, (expandRetainedTail_eq_some_iff htwo hround).mpr hs, htwo', hle, hround',
      fun p hp hle hround hfloor => ?_, hend.symm.imp_right fun (heq : s = 2) p hp _ => heq ▸ hp⟩
    exact absurd (hlast ⟨hle, htwo'.trans hp.le, hround, .inr hfloor⟩) (not_le.mpr hp)

/-- A round whose answer is in two messages, and a second round. -/
def twoAnswers : List Message :=
  [.user "a" ⟨"m0"⟩, .assistant "b" ⟨"m1"⟩, .assistant "c" ⟨"m2"⟩, .user "d" ⟨"m3"⟩,
    .assistant "e" ⟨"m4"⟩]

/-- **The context floor loses a split**: the second round holds too few texts. -/
theorem context_floor_drops_split : startsRequestRound twoAnswers 3 = true ∧
    expandRetainedTailForContextFloor ⟨1, 3⟩ twoAnswers 3 = none := by
  decide +kernel

theorem context_floor_keeps_split_twoAnswers : FloorKept ⟨1, 2⟩ twoAnswers 3 :=
  (context_floor_keeps_split ⟨1, 2⟩ twoAnswers 3 (by decide) rfl).mpr
    ⟨3, le_rfl, by decide, rfl, .inr (.inr (by decide +kernel))⟩

/-! ### Tool pairs -/

/-- From a position on, **every tool result has its call**. -/
def PairsFrom (messages : List Message) (p : ℕ) : Prop :=
  ∀ id ∈ (messages.drop p).flatMap messageToolResultIds,
    id ∈ (messages.drop p).flatMap messageToolCallIds

theorem missingToolCallIds_isEmpty :
    (missingToolCallIds (messages.drop splitAt)).isEmpty = true ↔ PairsFrom messages splitAt := by
  simp only [missingToolCallIds, PairsFrom, List.isEmpty_iff, filter_eq_nil_iff, decide_eq_true_eq,
    not_not]

/-- Moving a paired position back asks for the calls of the results passed over. -/
theorem pairsFrom_iff (hle : start ≤ splitAt) (h : PairsFrom messages splitAt) :
    PairsFrom messages start ↔
      ∀ id ∈ (messagesBetween messages start splitAt).flatMap messageToolResultIds,
        id ∈ (messages.drop start).flatMap messageToolCallIds := by
  unfold PairsFrom
  rw [drop_eq_messagesBetween hle, flatMap_append, flatMap_append]
  exact ⟨fun hall id hid => hall id (mem_append_left _ hid), fun hbetween id hid =>
    (mem_append.mp hid).elim (hbetween id) fun hid => mem_append_right _ (h id hid)⟩

/-- Between a missing call and an earlier position that has it is the call. -/
theorem exists_call_of_pairsFrom (hstart : PairsFrom messages start) (hle : start ≤ splitAt)
    (hopen : ¬PairsFrom messages splitAt) :
    ∃ i, start ≤ i ∧ i < splitAt ∧ ((messages[i]?).any fun m => (messageToolCallIds m).any
      fun id => decide (id ∈ missingToolCallIds (messages.drop splitAt))) = true := by
  obtain ⟨id, hid⟩ := exists_mem_of_ne_nil _
    (mt isEmpty_iff.mpr (mt missingToolCallIds_isEmpty.mp hopen))
  obtain ⟨hresult, hcall⟩ := mem_filter.mp hid
  obtain ⟨answer, hanswer, hidr⟩ := mem_flatMap.mp hresult
  obtain ⟨m, hm, hidm⟩ := mem_flatMap.mp
    (hstart id (mem_flatMap.mpr ⟨answer, drop_subset_drop_left _ hle hanswer, hidr⟩))
  obtain ⟨k, hk⟩ := mem_iff_getElem?.mp hm
  rw [getElem?_drop] at hk
  refine ⟨start + k, Nat.le_add_right _ k, Nat.lt_of_not_le fun hafter => ?_, ?_⟩
  · refine of_decide_eq_true hcall
      (mem_flatMap.mpr ⟨m, mem_iff_getElem?.mpr ⟨start + k - splitAt, ?_⟩, hidm⟩)
    rw [getElem?_drop, Nat.add_sub_cancel' hafter, hk]
  · rw [hk]
    exact any_eq_true.mpr ⟨id, hidm, decide_eq_true hid⟩

/-- **The walk to the calls** ends at the last position from which on the calls are there. -/
theorem adjustSplitAtLoop_eq_some (hfuel : splitAt < fuel) (htwo : 2 ≤ splitAt) :
    adjustSplitAtLoop messages fuel splitAt = some s ↔
      LastUpTo (fun p => 2 ≤ p ∧ PairsFrom messages p) splitAt s := by
  induction fuel generalizing splitAt with
  | zero => omega
  | succ fuel ih =>
    simp only [adjustSplitAtLoop]
    split
    next h => exact some_eq_some_iff_lastUpTo ⟨htwo, missingToolCallIds_isEmpty.mp h⟩
    next hmissing =>
      have hcall := fun p hp (hpairs : 2 ≤ p ∧ PairsFrom messages p) => exists_call_of_pairsFrom
        hpairs.2 hp (mt missingToolCallIds_isEmpty.mpr hmissing)
      cases hprev : findPreviousToolCallIndex messages splitAt
          (missingToolCallIds (messages.drop splitAt)) with
      | none =>
        refine none_eq_some_iff_lastUpTo fun p hp hpairs => ?_
        obtain ⟨i, -, hi, hcall⟩ := hcall p hp hpairs
        exact find?_eq_none.mp hprev i (mem_reverse.mpr (mem_range.mpr hi)) hcall
      | some previous =>
        have hlt := mem_range.mp (mem_reverse.mp (mem_of_find?_eq_some hprev))
        rw [findPreviousToolCallIndex, range_eq_range'] at hprev
        rw [lastUpTo_skip hlt.le fun p hp hpairs => ?_]
        · simp only
          split
          · exact none_eq_some_iff_lastUpTo fun p hp hpairs => by omega
          · exact ih (by omega) (by omega)
        · obtain ⟨i, hle, hi, hcall⟩ := hcall p hp hpairs
          exact hle.trans (le_of_find?_reverse_range' hprev i.zero_le (by omega) hcall)

/-- **The split is found** by the four walks, one after the other. -/
theorem selectCompactionSplitIndex_eq_some {preserve : ℕ} (hpreserve : preserve ≠ 0) :
    selectCompactionSplitIndex messages preserve = some s ↔
      ∃ e p, LastUpTo (FloorSplit retainedTailFloor messages) (messages.length - preserve) e ∧
        LastUpTo (fun p => 2 ≤ p ∧ PairsFrom messages p) e p ∧ 2 ≤ s ∧
        requestRoundStart messages p = s := by
  by_cases hsmall : messages.length < preserve + 2
  · refine iff_of_false ?_ fun ⟨e, _, he, _⟩ => by have := he.1.1; have := he.1.2.1; omega
    simp only [selectCompactionSplitIndex]
    split
    · nofun
    · rw [if_pos (by omega)]
      nofun
  simp only [selectCompactionSplitIndex]
  rw [if_neg (by omega), if_neg (by omega), if_neg (by omega),
    show messages.length - min preserve (messages.length - 1) = messages.length - preserve by omega]
  simp only [Option.bind_eq_some_iff, alignSplitAt_eq_some_iff]
  have hskip := fun e => lastUpTo_skip (P := FloorSplit retainedTailFloor messages) (i := e)
    (requestRoundStart_le messages (messages.length - preserve))
    fun p hp hfloor => le_requestRoundStart hfloor.2.1 hp
  constructor
  · rintro ⟨a, ⟨htwo, rfl⟩, e, he, p, hp, hs⟩
    have he := (expandRetainedTail_eq_some_iff htwo
      (startsRequestRound_requestRoundStart htwo)).mp he
    exact ⟨e, p, (hskip e).mpr he,
      (adjustSplitAtLoop_eq_some (Nat.lt_succ_self e) he.1.2.1).mp hp, hs⟩
  · rintro ⟨e, p, he, hp, hs⟩
    have he := (hskip e).mp he
    have htwo := he.1.2.1.trans he.1.1
    exact ⟨_, ⟨htwo, rfl⟩, e, (expandRetainedTail_eq_some_iff htwo
      (startsRequestRound_requestRoundStart htwo)).mpr he, p,
      (adjustSplitAtLoop_eq_some (Nat.lt_succ_self e) he.1.2.1).mpr hp, hs⟩

/-- **A sound split** is at the end only if nothing is to be preserved, else at a round start with a
long enough tail that holds the call of every tool result. -/
def SplitSound (messages : List Message) (preserve s : ℕ) : Prop :=
  2 ≤ s ∧ s ≤ messages.length ∧ (s = messages.length → preserve = 0) ∧
    (s ≠ messages.length → startsRequestRound messages s = true ∧
      preserve ≤ (messages.drop s).length ∧ PairsFrom messages s)

/-- **The split keeps tool pairs** exactly if nothing is to be preserved, or no tool result before
the last paired position, in the same round, answers a call of an earlier round. -/
theorem split_keeps_tool_pairs (messages : List Message) (preserve : ℕ) :
    (∀ s, selectCompactionSplitIndex messages preserve = some s → SplitSound messages preserve s) ↔
      preserve = 0 ∨ ∀ e p,
        LastUpTo (FloorSplit retainedTailFloor messages) (messages.length - preserve) e →
        LastUpTo (fun p => 2 ≤ p ∧ PairsFrom messages p) e p → 2 ≤ requestRoundStart messages p →
        ∀ id ∈ (messagesBetween messages (requestRoundStart messages p) p).flatMap
            messageToolResultIds,
          id ∈ (messages.drop (requestRoundStart messages p)).flatMap messageToolCallIds := by
  rcases eq_zero_or_pos preserve with rfl | hpos
  · refine iff_of_true (fun s hs => ?_) (.inl rfl)
    simp only [selectCompactionSplitIndex, zero_min, Nat.sub_zero] at hs
    split at hs
    · cases hs
    · cases hs
      exact ⟨by omega, le_rfl, fun _ => rfl, fun hne => absurd rfl hne⟩
  rw [or_iff_right (by omega : preserve ≠ 0)]
  have hselect : ∀ s, selectCompactionSplitIndex messages preserve = some s ↔ _ := fun s =>
    selectCompactionSplitIndex_eq_some (by omega)
  have hle := requestRoundStart_le messages
  constructor
  · intro h e p he hp htwo
    have hsound := h _ ((hselect _).mpr ⟨e, p, he, hp, htwo, rfl⟩)
    have := hle p; have := he.1.1; have := he.1.2.1; have := hp.1.1
    exact (pairsFrom_iff (hle p) hp.1.2.2).mp (hsound.2.2.2 (by omega)).2.2
  · intro h s hs
    obtain ⟨e, p, he, hp, htwo, rfl⟩ := (hselect s).mp hs
    have := hle p; have := he.1.1; have := he.1.2.1; have := hp.1.1
    refine ⟨htwo, by omega, by omega, fun _ => ⟨startsRequestRound_requestRoundStart htwo, ?_,
      (pairsFrom_iff (hle p) hp.1.2.2).mpr (h e p he hp htwo)⟩⟩
    rw [length_drop]
    omega

/-- A call with a steering message before its result, and a second such call. -/
def steeredCalls : List Message :=
  let call (id n : String) : Message := .assistantParts [.toolCall
    { id := ⟨id⟩, callId := ⟨id⟩, toolName := ⟨"read"⟩, arguments := .null, origin := .local }] ⟨n⟩
  let result (id n : String) : Message :=
    .toolResult (.error ⟨id⟩ ⟨id⟩ ⟨"read"⟩ "") ⟨n⟩
  [.user "a" ⟨"m0"⟩, .assistant "b" ⟨"m1"⟩, call "c1" "m2", .user "c" ⟨"m3"⟩, result "c1" "m4",
    call "c2" "m5", .user "d" ⟨"m6"⟩, result "c2" "m7", .assistant "e" ⟨"m8"⟩]

/-- **The split loses a call**: the walk stops at a steering message with a result behind it. -/
theorem split_separates_result_from_call :
    selectCompactionSplitIndex steeredCalls 1 = some 3 ∧ ¬SplitSound steeredCalls 1 3 := by
  refine ⟨by decide +kernel, fun h => ?_⟩
  have hpairs := (h.2.2.2 (by decide +kernel)).2.2
  revert hpairs
  unfold PairsFrom
  decide +kernel

end Nanoclaw
