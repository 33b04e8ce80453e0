import Qdgz300.DataProc.Proof.FusionGroups

/-!
# When fusion reaches a fixed point

A scan replaces its survivor by a better track, and does not go back to the tracks that it has
passed over: one of these may be the same as the replacing track. `Clean` are the lists on which
this happens in no scan; on them the result has no two tracks that should be fused
(`fuseFrom_apart`), and is fused into itself (`fuse_of_apart`). Where the last replacing track of a
scan is the same as one passed over that no other can replace (`LeavesBest`), both are returned
(`fuseFrom_meets`).
-/

namespace Qdgz300.DataProc

variable {α : Type*} [LinearOrder α] {shouldFuse : Kinematics → Kinematics → Bool}
  {value : BitVec 32 → α}

/-- The tracks whose flags are down. -/
def leftOver : List Track → List Bool → List Track
  | track :: tracks, merged :: flags =>
    if merged then leftOver tracks flags else track :: leftOver tracks flags
  | _, _ => []

/-- A scan from the survivor so far on, with the tracks that it has passed over: a track that
replaces the survivor is the same as none of them. -/
def CleanScan (shouldFuse : Kinematics → Kinematics → Bool) (value : BitVec 32 → α)
    (survivor : Track) (passed : List Track) : List Track → List Bool → Prop
  | track :: tracks, merged :: flags =>
    if merged then CleanScan shouldFuse value survivor passed tracks flags
    else if Same shouldFuse survivor track then
      if value survivor.confidence < value track.confidence then
        (∀ other ∈ passed, ¬ Same shouldFuse track other) ∧
          CleanScan shouldFuse value { track with handoverFlag := 1 } passed tracks flags
      else CleanScan shouldFuse value { survivor with handoverFlag := 1 } passed tracks flags
    else CleanScan shouldFuse value survivor (passed ++ [track]) tracks flags
  | _, _ => True

/-- No scan replaces its survivor by a track that is the same as one passed over. -/
def Clean (shouldFuse : Kinematics → Kinematics → Bool) (value : BitVec 32 → α) :
    List Track → List Bool → Prop
  | track :: tracks, merged :: flags =>
    if merged then Clean shouldFuse value tracks flags
    else
      CleanScan shouldFuse value track [] tracks flags ∧
        Clean shouldFuse value tracks (absorb shouldFuse value track tracks flags).2
  | _, _ => True

/-- `best` is left, and better than any other track left that is the same. -/
structure Unbeaten (shouldFuse : Kinematics → Kinematics → Bool) (value : BitVec 32 → α)
    (left before after : List Track) (best : Track) : Prop where
  split : left = before ++ best :: after
  better : ∀ other ∈ before ++ after, Same shouldFuse other best →
    value other.confidence < value best.confidence

/-- `track` is about to replace the survivor: none of the tracks ahead replaces it in turn, and it
is the same as a track passed over that is unbeaten among those that it does not take. -/
structure Misses (shouldFuse : Kinematics → Kinematics → Bool) (value : BitVec 32 → α)
    (track : Track) (passed ahead : List Track) : Prop where
  last : ∀ other ∈ ahead, Same shouldFuse track other →
    value other.confidence ≤ value track.confidence
  best : ∃ before best after, Same shouldFuse track best ∧
    Unbeaten shouldFuse value (passed ++ ahead.filter fun other => ¬ Same shouldFuse track other)
      before after best

/-- A scan from the survivor so far on, in which a replacing track misses one passed over. -/
def MissesScan (shouldFuse : Kinematics → Kinematics → Bool) (value : BitVec 32 → α)
    (survivor : Track) (passed : List Track) : List Track → List Bool → Prop
  | track :: tracks, merged :: flags =>
    if merged then MissesScan shouldFuse value survivor passed tracks flags
    else if Same shouldFuse survivor track then
      if value survivor.confidence < value track.confidence then
        Misses shouldFuse value track passed (leftOver tracks flags) ∨
          MissesScan shouldFuse value { track with handoverFlag := 1 } passed tracks flags
      else MissesScan shouldFuse value { survivor with handoverFlag := 1 } passed tracks flags
    else MissesScan shouldFuse value survivor (passed ++ [track]) tracks flags
  | _, _ => False

/-- Some scan misses a track that no other can replace. -/
def LeavesBest (shouldFuse : Kinematics → Kinematics → Bool) (value : BitVec 32 → α) :
    List Track → List Bool → Prop
  | track :: tracks, merged :: flags =>
    if merged then LeavesBest shouldFuse value tracks flags
    else
      MissesScan shouldFuse value track [] tracks flags ∨
        LeavesBest shouldFuse value tracks (absorb shouldFuse value track tracks flags).2
  | _, _ => False

/-! ## What a scan leaves -/

/-- A scan takes tracks away from those that are left. -/
theorem leftOver_sublist (tracks : List Track) {flags flags' : List Bool}
    (h : List.Forall₂ (fun before after => before = true → after = true) flags flags') :
    (leftOver tracks flags').Sublist (leftOver tracks flags) := by
  induction h generalizing tracks with
  | nil => cases tracks <;> exact .refl _
  | @cons before after flags flags' himp _ ih =>
    cases tracks with
    | nil => exact .refl _
    | cons track tracks =>
      cases before <;> cases after
      · exact (ih tracks).cons_cons track
      · exact (ih tracks).cons track
      · exact absurd (himp rfl) Bool.false_ne_true
      · exact ih tracks

variable (shouldFuse value) in
theorem leftOver_absorb (survivor : Track) (tracks : List Track) (flags : List Bool) :
    (leftOver tracks (absorb shouldFuse value survivor tracks flags).2).Sublist
      (leftOver tracks flags) :=
  leftOver_sublist tracks (absorb_flags shouldFuse value survivor tracks flags)

theorem leftOver_end {tracks : List Track} {flags : List Bool}
    (h : ∀ track tracks' merged flags', tracks = track :: tracks' → flags = merged :: flags' → False) :
    leftOver tracks flags = [] := by
  cases tracks with
  | nil => rfl
  | cons track tracks =>
    cases flags with
    | nil => rfl
    | cons merged flags => exact (h track tracks merged flags rfl rfl).elim

theorem mem_leftOver_cons {track other : Track} {tracks : List Track} {merged : Bool}
    {flags : List Bool} (h : other ∈ leftOver tracks flags) :
    other ∈ leftOver (track :: tracks) (merged :: flags) := by
  cases merged
  · exact List.mem_cons_of_mem _ h
  · exact h

/-- The survivor moves like the track it started from, or like one of those left. -/
theorem absorb_kinematics (survivor : Track) (tracks : List Track) (flags : List Bool) :
    ∃ track ∈ survivor :: leftOver tracks flags,
      kinematics (absorb shouldFuse value survivor tracks flags).1 = kinematics track := by
  fun_induction absorb shouldFuse value survivor tracks flags with
  | case1 survivor track tracks merged flags _ scan ih =>
    obtain ⟨found, hmem, hsame⟩ := ih
    refine ⟨found, ?_, hsame⟩
    rcases List.mem_cons.1 hmem with rfl | hmem
    · exact List.mem_cons_self
    · exact List.mem_cons_of_mem _ (mem_leftOver_cons hmem)
  | case2 survivor track tracks merged flags hmerge better scan ih =>
    obtain ⟨rfl, -⟩ : merged = false ∧ _ := by simpa using hmerge
    obtain ⟨found, hmem, hsame⟩ := ih
    rcases List.mem_cons.1 hmem with rfl | hmem
    · have hbetter : kinematics scan.1 = kinematics better := hsame
      rcases (merge_best value survivor track).1 with heq | heq
      · exact ⟨survivor, List.mem_cons_self, hbetter.trans (congrArg kinematics heq)⟩
      · exact ⟨track, List.mem_cons_of_mem _ List.mem_cons_self,
          hbetter.trans (congrArg kinematics heq)⟩
    · exact ⟨found, List.mem_cons_of_mem _ (List.mem_cons_of_mem _ hmem), hsame⟩
  | case3 => exact ⟨_, List.mem_cons_self, rfl⟩

/-- Every returned track moves like one of those left. -/
theorem fuseFrom_kinematics (tracks : List Track) (flags : List Bool) :
    ∀ out ∈ fuseFrom shouldFuse value tracks flags,
      ∃ track ∈ leftOver tracks flags, kinematics out = kinematics track := by
  fun_induction fuseFrom shouldFuse value tracks flags with
  | case1 track tracks flags ih => exact ih
  | case2 track tracks merged flags hmerged scan ih =>
    intro out hout
    rw [leftOver, if_neg hmerged]
    rcases List.mem_cons.1 hout with rfl | hout
    · exact absorb_kinematics track tracks flags
    · obtain ⟨found, hmem, hsame⟩ := ih out hout
      have hsub := leftOver_absorb shouldFuse value track tracks flags
      exact ⟨found, List.mem_cons_of_mem _ (hsub.subset hmem), hsame⟩
  | case3 => exact fun out hout => absurd hout List.not_mem_nil

/-- **A clean scan** ends with a survivor that is the same as none of the tracks it leaves: those
passed over before and those that are still open. -/
theorem absorb_clean (survivor : Track) (tracks : List Track) (flags : List Bool)
    (passed : List Track) (h : CleanScan shouldFuse value survivor passed tracks flags)
    (hpassed : ∀ other ∈ passed, ¬ Same shouldFuse survivor other) :
    ∀ other ∈ passed ++ leftOver tracks (absorb shouldFuse value survivor tracks flags).2,
      ¬ Same shouldFuse (absorb shouldFuse value survivor tracks flags).1 other := by
  fun_induction absorb shouldFuse value survivor tracks flags generalizing passed with
  | case1 survivor track tracks merged flags hpass scan ih =>
    cases merged with
    | true => exact ih passed h hpassed
    | false =>
      have hapart : ¬ Same shouldFuse survivor track := by simpa [Same] using hpass
      rw [CleanScan, if_neg Bool.false_ne_true, if_neg hapart] at h
      have hleft := ih (passed ++ [track]) h ?_
      · rwa [List.append_assoc] at hleft
      · intro other hother
        rcases List.mem_append.1 hother with hother | hother
        · exact hpassed other hother
        · rwa [List.mem_singleton.1 hother]
  | case2 survivor track tracks merged flags hmerge better scan ih =>
    obtain ⟨rfl, hsame⟩ : merged = false ∧ Same shouldFuse survivor track := by
      simpa [Same] using hmerge
    rw [CleanScan, if_neg Bool.false_ne_true, if_pos hsame] at h
    by_cases hbetter : value survivor.confidence < value track.confidence
    · -- the replacement
      have heq : better = track := if_pos hbetter
      rw [if_pos hbetter] at h
      rw [heq] at ih
      have hscan : scan = absorb shouldFuse value { track with handoverFlag := 1 } tracks
        flags := by
        simp only [scan, heq]
      rw [hscan]
      exact ih passed h.2 h.1
    · have heq : better = survivor := if_neg hbetter
      rw [if_neg hbetter] at h
      rw [heq] at ih
      have hscan : scan = absorb shouldFuse value { survivor with handoverFlag := 1 } tracks
        flags := by
        simp only [scan, heq]
      rw [hscan]
      exact ih passed h hpassed
  | case3 tracks survivor flags hnil =>
    rw [leftOver_end hnil, List.append_nil]
    exact hpassed

/-- **Clean scans** return tracks that are all apart. -/
theorem fuseFrom_apart (tracks : List Track) (flags : List Bool)
    (h : Clean shouldFuse value tracks flags) :
    (fuseFrom shouldFuse value tracks flags).Pairwise fun a b => ¬ Same shouldFuse a b := by
  fun_induction fuseFrom shouldFuse value tracks flags with
  | case1 track tracks flags ih => exact ih h
  | case2 track tracks merged flags hmerged scan ih =>
    rw [Clean, if_neg hmerged] at h
    refine List.pairwise_cons.2 ⟨fun out hout => ?_, ih h.2⟩
    obtain ⟨found, hmem, hsame⟩ := fuseFrom_kinematics tracks scan.2 out hout
    rw [Same, hsame]
    exact absorb_clean track tracks flags [] h.1 (List.forall_mem_nil _) found hmem
  | case3 => exact .nil

/-! ## Tracks that are apart -/

variable (shouldFuse value) in
theorem absorb_of_apart (survivor : Track) (tracks : List Track) (flags : List Bool)
    (h : ∀ other ∈ leftOver tracks flags, ¬ Same shouldFuse survivor other) :
    absorb shouldFuse value survivor tracks flags = (survivor, flags) := by
  fun_induction absorb shouldFuse value survivor tracks flags with
  | case1 survivor track tracks merged flags _ scan ih =>
    have hrest : scan = (survivor, flags) := ih fun other hmem => h other (mem_leftOver_cons hmem)
    rw [hrest]
  | case2 survivor track tracks merged flags hmerge better scan ih =>
    obtain ⟨rfl, hsame⟩ : merged = false ∧ _ := by simpa using hmerge
    exact absurd hsame (h track List.mem_cons_self)
  | case3 => rfl

theorem leftOver_replicate (tracks : List Track) :
    leftOver tracks (List.replicate tracks.length false) = tracks := by
  induction tracks with
  | nil => rfl
  | cons track tracks ih => exact congrArg _ ih

/-- **Tracks that are apart** are fused into themselves. -/
theorem fuse_of_apart (tracks : List Track)
    (h : tracks.Pairwise fun a b => ¬ Same shouldFuse a b) : fuse shouldFuse value tracks =
      tracks := by
  induction tracks with
  | nil => rfl
  | cons track tracks ih =>
    obtain ⟨hhead, htail⟩ := List.pairwise_cons.1 h
    have hscan : absorb shouldFuse value track tracks (List.replicate tracks.length false) =
        (track, List.replicate tracks.length false) := by
      apply absorb_of_apart
      rwa [leftOver_replicate]
    have hrest : fuseFrom shouldFuse value tracks (List.replicate tracks.length false) = tracks :=
      ih htail
    simp [fuse, List.replicate_succ, fuseFrom, hscan, hrest]

variable (shouldFuse value) in
theorem length_fuseFrom_le (tracks : List Track) (flags : List Bool) :
    (fuseFrom shouldFuse value tracks flags).length ≤ (leftOver tracks flags).length := by
  fun_induction fuseFrom shouldFuse value tracks flags with
  | case1 track tracks flags ih => exact ih
  | case2 track tracks merged flags hmerged scan ih =>
    have hsub := (leftOver_absorb shouldFuse value track tracks flags).length_le
    rw [leftOver, if_neg hmerged, List.length_cons, List.length_cons]
    exact Nat.succ_le_succ (ih.trans hsub)
  | case3 => exact Nat.zero_le _

variable (shouldFuse value) in
/-- A scan that merges nothing has found nothing. -/
theorem apart_of_absorb (survivor : Track) (tracks : List Track) (flags : List Bool)
    (h : (leftOver tracks flags).length ≤
      (leftOver tracks (absorb shouldFuse value survivor tracks flags).2).length) :
    ∀ other ∈ leftOver tracks flags, ¬ Same shouldFuse survivor other := by
  fun_induction absorb shouldFuse value survivor tracks flags with
  | case1 survivor track tracks merged flags hpass scan ih =>
    cases merged with
    | true => exact ih h
    | false =>
      intro other hother
      rcases List.mem_cons.1 hother with rfl | hother
      · simpa [Same] using hpass
      · exact ih (Nat.le_of_succ_le_succ h) other hother
  | case2 survivor track tracks merged flags hmerge better scan ih =>
    obtain ⟨rfl, -⟩ : merged = false ∧ _ := by simpa using hmerge
    have hsub := (leftOver_absorb shouldFuse value { better with handoverFlag := 1 } tracks
      flags).length_le
    exact absurd (h.trans hsub) (Nat.not_succ_le_self _)
  | case3 tracks survivor flags hnil =>
    rw [leftOver_end hnil]
    exact List.forall_mem_nil _

/-- **Fixed points** are the lists of tracks that are apart. -/
theorem fuse_eq_self_iff (tracks : List Track) :
    fuse shouldFuse value tracks = tracks ↔ tracks.Pairwise fun a b => ¬ Same shouldFuse a b := by
  refine ⟨fun h => ?_, fuse_of_apart tracks⟩
  induction tracks with
  | nil => exact .nil
  | cons track tracks ih =>
    obtain ⟨-, htail⟩ : _ ∧ fuseFrom shouldFuse value tracks
        (absorb shouldFuse value track tracks (List.replicate tracks.length false)).2 = tracks := by
      simpa [fuse, List.replicate_succ, fuseFrom] using h
    have hlength := length_fuseFrom_le shouldFuse value tracks
      (absorb shouldFuse value track tracks (List.replicate tracks.length false)).2
    rw [htail] at hlength
    have hapart := apart_of_absorb shouldFuse value track tracks
      (List.replicate tracks.length false) (by rwa [leftOver_replicate])
    rw [leftOver_replicate] at hapart
    have hscan := absorb_of_apart shouldFuse value track tracks (List.replicate tracks.length false)
      (by rwa [leftOver_replicate])
    rw [hscan] at htail
    exact List.pairwise_cons.2 ⟨hapart, ih htail⟩

/-! ## A track that is left behind -/

/-- A survivor that no track left can replace. -/
theorem absorb_stays (survivor : Track) (tracks : List Track) (flags : List Bool)
    (h : ∀ other ∈ leftOver tracks flags, Same shouldFuse survivor other →
      value other.confidence ≤ value survivor.confidence) :
    kinematics (absorb shouldFuse value survivor tracks flags).1 = kinematics survivor := by
  fun_induction absorb shouldFuse value survivor tracks flags with
  | case1 survivor track tracks merged flags _ scan ih =>
    exact ih fun other hmem => h other (mem_leftOver_cons hmem)
  | case2 survivor track tracks merged flags hmerge better scan ih =>
    obtain ⟨rfl, hsame⟩ : merged = false ∧ _ := by simpa using hmerge
    have hbetter : better = survivor := if_neg (not_lt.2 (h track List.mem_cons_self hsame))
    have hmoves : kinematics better = kinematics survivor := congrArg kinematics hbetter
    refine (ih fun other hmem hother => ?_).trans hmoves
    change Same shouldFuse better other at hother
    change value other.confidence ≤ value better.confidence
    rw [hbetter] at hother ⊢
    exact h other (mem_leftOver_cons hmem) hother
  | case3 => rfl

/-- Such a survivor takes all the tracks that are the same. -/
theorem leftOver_stays (survivor : Track) (tracks : List Track) (flags : List Bool)
    (h : ∀ other ∈ leftOver tracks flags, Same shouldFuse survivor other →
      value other.confidence ≤ value survivor.confidence) :
    leftOver tracks (absorb shouldFuse value survivor tracks flags).2 =
      (leftOver tracks flags).filter fun other => ¬ Same shouldFuse survivor other := by
  fun_induction absorb shouldFuse value survivor tracks flags with
  | case1 survivor track tracks merged flags hpass scan ih =>
    have hrest := ih fun other hmem => h other (mem_leftOver_cons hmem)
    cases merged with
    | true => exact hrest
    | false =>
      have hapart : ¬ Same shouldFuse survivor track := by simpa [Same] using hpass
      simp only [leftOver, Bool.false_eq_true, if_false]
      rw [List.filter_cons_of_pos (by simpa using hapart)]
      exact congrArg _ hrest
  | case2 survivor track tracks merged flags hmerge better scan ih =>
    obtain ⟨rfl, hsame⟩ : merged = false ∧ Same shouldFuse survivor track := by
      simpa [Same] using hmerge
    have hbetter : better = survivor := if_neg (not_lt.2 (h track List.mem_cons_self hsame))
    have hrest := ih (by
      rw [hbetter]
      exact fun other hmem => h other (mem_leftOver_cons hmem))
    simp only [leftOver, Bool.false_eq_true, if_false, if_true]
    rw [hrest, List.filter_cons_of_neg (by simpa using hsame), hbetter]
    rfl
  | case3 tracks survivor flags hnil =>
    rw [leftOver_end hnil, List.filter_nil]

/-- **A scan that misses** an unbeaten track ends with a survivor that is the same. -/
theorem absorb_misses (survivor : Track) (tracks : List Track) (flags : List Bool)
    (passed : List Track) (h : MissesScan shouldFuse value survivor passed tracks flags) :
    ∃ before best after, Same shouldFuse (absorb shouldFuse value survivor tracks flags).1 best ∧
      Unbeaten shouldFuse value
        (passed ++ leftOver tracks (absorb shouldFuse value survivor tracks flags).2) before after
        best := by
  fun_induction absorb shouldFuse value survivor tracks flags generalizing passed with
  | case1 survivor track tracks merged flags hpass scan ih =>
    cases merged with
    | true => exact ih passed h
    | false =>
      have hapart : ¬ Same shouldFuse survivor track := by simpa [Same] using hpass
      rw [MissesScan, if_neg Bool.false_ne_true, if_neg hapart] at h
      have hleft := ih (passed ++ [track]) h
      rwa [List.append_assoc] at hleft
  | case2 survivor track tracks merged flags hmerge better scan ih =>
    obtain ⟨rfl, hsame⟩ : merged = false ∧ Same shouldFuse survivor track := by
      simpa [Same] using hmerge
    rw [MissesScan, if_neg Bool.false_ne_true, if_pos hsame] at h
    by_cases hbetter : value survivor.confidence < value track.confidence
    · have heq : better = track := if_pos hbetter
      have hscan : scan = absorb shouldFuse value { track with handoverFlag := 1 } tracks
        flags := by
        simp only [scan, heq]
      rw [if_pos hbetter] at h
      rw [heq] at ih
      rw [hscan]
      rcases h with ⟨hlast, before, best, after, hbest, hunbeaten⟩ | hlater
      · -- the survivor stays with this track, which the unbeaten one is the same as
        refine ⟨before, best, after, ?_, ?_⟩
        · have hstays := absorb_stays { track with handoverFlag := 1 } tracks flags hlast
          rw [Same, hstays]
          exact hbest
        · have hleft := leftOver_stays { track with handoverFlag := 1 } tracks flags hlast
          rw [leftOver, if_pos rfl, hleft]
          exact hunbeaten
      · exact ih passed hlater
    · have heq : better = survivor := if_neg hbetter
      have hscan : scan = absorb shouldFuse value { survivor with handoverFlag := 1 } tracks
        flags := by
        simp only [scan, heq]
      rw [if_neg hbetter] at h
      rw [heq] at ih
      rw [hscan]
      exact ih passed h
  | case3 tracks survivor flags hnil =>
    cases tracks with
    | nil => exact absurd h (by simp [MissesScan])
    | cons track tracks =>
      cases flags with
      | nil => exact absurd h (by simp [MissesScan])
      | cons merged flags => exact absurd rfl (hnil track tracks merged flags rfl)

/-- The first of the tracks left is unbeaten, or it is another that is. -/
theorem Unbeaten.cons_cases {track best : Track} {left before after : List Track}
    (h : Unbeaten shouldFuse value (track :: left) before after best) :
    (before = [] ∧ track = best ∧ left = after) ∨
      ∃ before', before = track :: before' ∧ Unbeaten shouldFuse value left before' after best ∧
        (Same shouldFuse track best → value track.confidence < value best.confidence) := by
  cases before with
  | nil =>
    obtain ⟨rfl, rfl⟩ := List.cons.inj h.split
    exact .inl ⟨rfl, rfl, rfl⟩
  | cons first before =>
    obtain ⟨rfl, hleft⟩ := List.cons.inj h.split
    refine .inr ⟨before, rfl, ⟨hleft, fun other hother => ?_⟩, h.better track List.mem_cons_self⟩
    exact h.better other (List.mem_cons_of_mem _ hother)

theorem Unbeaten.cons {track best : Track} {left before after : List Track}
    (h : Unbeaten shouldFuse value left before after best)
    (htrack : Same shouldFuse track best → value track.confidence < value best.confidence) :
    Unbeaten shouldFuse value (track :: left) (track :: before) after best := by
  refine ⟨congrArg _ h.split, fun other hother => ?_⟩
  rcases List.mem_cons.1 hother with rfl | hother
  · exact htrack
  · exact h.better other hother

theorem Unbeaten.nil {best : Track} {left after : List Track}
    (h : Unbeaten shouldFuse value (best :: after) [] after best) (hsub : left.Sublist after) :
    Unbeaten shouldFuse value (best :: left) [] left best :=
  ⟨rfl, fun other hother => h.better other (hsub.subset hother)⟩

section
variable (hsym : ∀ a b, shouldFuse a b = shouldFuse b a)
include hsym

theorem same_comm (a b : Track) : Same shouldFuse a b ↔ Same shouldFuse b a := by
  rw [Same, Same, hsym]

theorem Unbeaten.absorb {best : Track} {tracks : List Track} {flags : List Bool}
    {after : List Track}
    (h : Unbeaten shouldFuse value (best :: leftOver tracks flags) [] after best) {survivor : Track}
    (hkinematics : kinematics survivor = kinematics best)
    (hconfidence : survivor.confidence = best.confidence) :
    kinematics (absorb shouldFuse value survivor tracks flags).1 = kinematics best := by
  refine (absorb_stays survivor tracks flags fun other hmem hother => ?_).trans hkinematics
  obtain ⟨-, rfl⟩ := List.cons.inj h.split
  rw [hconfidence]
  refine (h.better other hmem ?_).le
  rw [same_comm hsym, Same, ← hkinematics]
  exact hother

/-- A scan leaves an unbeaten track behind, or ends with it. -/
theorem absorb_meets {best : Track} {after : List Track} (survivor : Track) (tracks : List Track)
    (flags : List Bool) (before : List Track)
    (h : Unbeaten shouldFuse value (leftOver tracks flags) before after best)
    (hsurvivor : Same shouldFuse survivor best → value survivor.confidence < value best.confidence) :
    (∃ before' after', Unbeaten shouldFuse value
      (leftOver tracks (absorb shouldFuse value survivor tracks flags).2) before' after' best) ∨
    kinematics (absorb shouldFuse value survivor tracks flags).1 = kinematics best := by
  fun_induction absorb shouldFuse value survivor tracks flags generalizing before with
  | case1 survivor track tracks merged flags _ scan ih =>
    cases merged with
    | true => exact ih before h hsurvivor
    | false =>
      rcases h.cons_cases with ⟨rfl, rfl, hleft⟩ | ⟨before', rfl, hrest, htrack⟩
      · have hsub := leftOver_absorb shouldFuse value survivor tracks flags
        obtain rfl := hleft
        exact .inl ⟨[], _, h.nil hsub⟩
      · rcases ih before' hrest hsurvivor with ⟨before'', after'', hleft⟩ | hmet
        · exact .inl ⟨_, _, hleft.cons htrack⟩
        · exact .inr hmet
  | case2 survivor track tracks merged flags hmerge better scan ih =>
    obtain ⟨rfl, hsame⟩ : merged = false ∧ Same shouldFuse survivor track := by
      simpa [Same] using hmerge
    rcases h.cons_cases with ⟨rfl, rfl, hleft⟩ | ⟨before', rfl, hrest, htrack⟩
    · -- the scan meets the unbeaten track, which replaces the survivor
      have hbetter : better = track := if_pos (hsurvivor hsame)
      have hmoves : kinematics better = kinematics track := congrArg kinematics hbetter
      have hconfidence : better.confidence = track.confidence := congrArg Track.confidence hbetter
      exact .inr (h.absorb hsym hmoves hconfidence)
    · refine ih before' hrest fun hbetter => ?_
      change Same shouldFuse better best at hbetter
      change value better.confidence < value best.confidence
      rcases (merge_best value survivor track).1 with heq | heq
      · rw [show better = survivor from heq] at hbetter ⊢
        exact hsurvivor hbetter
      · rw [show better = track from heq] at hbetter ⊢
        exact htrack hbetter
  | case3 => exact .inl ⟨before, after, h⟩

/-- **An unbeaten track** is returned, but for its flag. -/
theorem fuseFrom_meets {best : Track} {after : List Track} (tracks : List Track) (flags : List Bool)
    (before : List Track)
    (h : Unbeaten shouldFuse value (leftOver tracks flags) before after best) :
    ∃ out ∈ fuseFrom shouldFuse value tracks flags, kinematics out = kinematics best := by
  fun_induction fuseFrom shouldFuse value tracks flags generalizing before after with
  | case1 track tracks flags ih => exact ih before h
  | case2 track tracks merged flags hmerged scan =>
    rename_i ih
    rw [leftOver, if_neg hmerged] at h
    rcases h.cons_cases with ⟨rfl, rfl, hleft⟩ | ⟨before', rfl, hrest, htrack⟩
    · exact ⟨scan.1, List.mem_cons_self, h.absorb hsym rfl rfl⟩
    · rcases absorb_meets hsym track tracks flags before' hrest htrack with
        ⟨before'', after'', hleft⟩ | hmet
      · obtain ⟨out, hout, hkinematics⟩ := ih before'' hleft
        exact ⟨out, List.mem_cons_of_mem _ hout, hkinematics⟩
      · exact ⟨scan.1, List.mem_cons_self, hmet⟩
  | case3 => exact absurd h.split (by simp [leftOver])

/-- **An unbeaten track that a scan misses** is returned beside the survivor that it should be fused
with. -/
theorem fuseFrom_not_apart (tracks : List Track) (flags : List Bool)
    (h : LeavesBest shouldFuse value tracks flags) :
    ¬ (fuseFrom shouldFuse value tracks flags).Pairwise fun a b => ¬ Same shouldFuse a b := by
  fun_induction fuseFrom shouldFuse value tracks flags with
  | case1 track tracks flags ih => exact ih h
  | case2 track tracks merged flags hmerged scan ih =>
    rw [LeavesBest, if_neg hmerged] at h
    rw [List.pairwise_cons]
    rintro ⟨hhead, htail⟩
    rcases h with hmisses | hrest
    · obtain ⟨before, best, after, hsame, hbest⟩ := absorb_misses track tracks flags [] hmisses
      obtain ⟨out, hout, hkinematics⟩ := fuseFrom_meets hsym tracks scan.2 before hbest
      refine hhead out hout ?_
      rw [Same, hkinematics]
      exact hsame
    · exact ih hrest htail
  | case3 => exact absurd h (by simp [LeavesBest])

/-- **When fusion reaches a fixed point**: where no scan replaces its survivor by a track that is
the same as one passed over, the returned tracks are all apart and fused into themselves; where some
scan misses such a track that no other can replace, they are not. -/
theorem fuse_fixed_point (value : BitVec 32 → α) (tracks : List Track) :
    (Clean shouldFuse value tracks (List.replicate tracks.length false) →
      ((fuse shouldFuse value tracks).Pairwise fun a b =>
        ¬ Same shouldFuse a b ∧ ¬ Same shouldFuse b a) ∧
      fuse shouldFuse value (fuse shouldFuse value tracks) = fuse shouldFuse value tracks) ∧
    (LeavesBest shouldFuse value tracks (List.replicate tracks.length false) →
      ¬ ((fuse shouldFuse value tracks).Pairwise fun a b =>
        ¬ Same shouldFuse a b ∧ ¬ Same shouldFuse b a) ∧
      fuse shouldFuse value (fuse shouldFuse value tracks) ≠ fuse shouldFuse value tracks) := by
  refine ⟨fun hclean => ?_, fun hleaves => ?_⟩
  · have hapart := fuseFrom_apart tracks _ hclean
    refine ⟨hapart.imp fun h => ⟨h, fun hother => h ((same_comm hsym _ _).1 hother)⟩, ?_⟩
    exact fuse_of_apart _ hapart
  · have hnot := fuseFrom_not_apart hsym tracks _ hleaves
    exact ⟨fun hapart => hnot (hapart.imp And.left), fun heq => hnot ((fuse_eq_self_iff _).1 heq)⟩

end

theorem near_comm (a b : Kinematics) : near a b = near b a := by
  rw [near, near, Bool.beq_comm, Bool.or_assoc, Bool.or_assoc, Bool.or_comm (a.posX == eighty)]

/-- With the best track in front everything is merged into it. -/
theorem bestFirst_fixed_point :
    ((fuse near BitVec.toNat betterLast.reverse).Pairwise fun a b => ¬ Same near a b ∧ ¬ Same near b a) ∧
      fuse near BitVec.toNat (fuse near BitVec.toNat betterLast.reverse) =
        fuse near BitVec.toNat betterLast.reverse :=
  (fuse_fixed_point near_comm BitVec.toNat betterLast.reverse).1
    (by simp [betterLast, Clean, CleanScan, absorb, onAxis, Same, kinematics, near, eighty])

/-- **One target as two tracks**: the scan from 0 metres passes the track at 160, then takes over
the better one at 80 metres, and is not compared with the one at 160 again. -/
theorem betterLast_not_fixed :
    (∀ a b, near a b = near b a) ∧
    ¬ ((fuse near BitVec.toNat betterLast).Pairwise fun a b => ¬ Same near a b ∧ ¬ Same near b a) ∧
    fuse near BitVec.toNat (fuse near BitVec.toNat betterLast) ≠
      fuse near BitVec.toNat betterLast :=
  ⟨near_comm, by decide, by decide⟩

end Qdgz300.DataProc
