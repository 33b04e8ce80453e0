import Mathlib.Data.List.Pairwise
import Mathlib.Data.List.Perm.Basic
import Qdgz300.DataProc.FusionEngine

/-!
# Fusion partitions the tracks

A group is a head and the tracks whose flags its scan raises, read off the flags before and after
(`raised`). The tracks whose flags are down are at every point those that are in no group yet, so
that each track comes into one (`groupsFrom_perm`); `absorb_takes` is which tracks a scan merges,
and `absorb_best` what it makes of a group.
-/

namespace Qdgz300.DataProc

variable {α : Type*} [LinearOrder α] (shouldFuse : Kinematics → Kinematics → Bool)
  (value : BitVec 32 → α)

/-- The tracks whose flags are down, with their places from `i` on. -/
def unmerged (i : Nat) : List Track → List Bool → List (Track × Nat)
  | track :: tracks, merged :: flags =>
    if merged then unmerged (i + 1) tracks flags else (track, i) :: unmerged (i + 1) tracks flags
  | _, _ => []

/-- The tracks whose flags are down before a scan and up after it. -/
def raised (i : Nat) : List Track → List Bool → List Bool → List (Track × Nat)
  | track :: tracks, before :: flags, after :: flags' =>
    if !before && after then (track, i) :: raised (i + 1) tracks flags flags'
    else raised (i + 1) tracks flags flags'
  | _, _, _ => []

/-- The groups of a run of the outer loop: a head, and what its scan has merged into it. -/
def groupsFrom (i : Nat) : List Track → List Bool → List (List (Track × Nat))
  | track :: tracks, merged :: flags =>
    if merged then groupsFrom (i + 1) tracks flags
    else
      let scan := absorb shouldFuse value track tracks flags
      ((track, i) :: raised (i + 1) tracks flags scan.2) :: groupsFrom (i + 1) tracks scan.2
  | _, _ => []

/-- The groups of `fuse`. -/
def groups (tracks : List Track) : List (List (Track × Nat)) :=
  groupsFrom shouldFuse value 0 tracks (List.replicate tracks.length false)

/-- `should_fuse` of two tracks. -/
def Same (shouldFuse : Kinematics → Kinematics → Bool) (a b : Track) : Prop :=
  shouldFuse (kinematics a) (kinematics b) = true

instance (a b : Track) : Decidable (Same shouldFuse a b) :=
  inferInstanceAs (Decidable (shouldFuse (kinematics a) (kinematics b) = true))

/-- The better of two tracks, the first when they are as good. -/
def better (survivor track : Track) : Track :=
  if value survivor.confidence < value track.confidence then track else survivor

/-- The survivor of a scan at the place `place`: the best of the head and the members before it. -/
def survivorAt (head : Track) (members : List (Track × Nat)) (place : Nat) : Track :=
  ((members.filter fun member => member.2 < place).map Prod.fst).foldl (better value) head

/-- The scan of a group takes the track: it should be fused with the survivor that it meets. -/
def Takes (group : List (Track × Nat)) (track : Track × Nat) : Prop :=
  ∃ head members, group = head :: members ∧
    Same shouldFuse (survivorAt value head.1 members track.2) track.1

/-- What is returned for a group: the best of its tracks, flagged if there are several. -/
structure IsBest (group : List Track) (out : Track) : Prop where
  best : ∃ track ∈ group, out = { track with handoverFlag := out.handoverFlag } ∧
    ∀ other ∈ group, value other.confidence ≤ value track.confidence
  several : 2 ≤ group.length → out.handoverFlag = 1
  single : group.length = 1 → out ∈ group

/-! ## One scan -/

theorem absorb_flags (survivor : Track) (tracks : List Track) (flags : List Bool) :
    List.Forall₂ (fun before after => before = true → after = true) flags
      (absorb shouldFuse value survivor tracks flags).2 := by
  fun_induction absorb shouldFuse value survivor tracks flags with
  | case1 survivor track tracks merged flags _ scan ih => exact .cons id ih
  | case2 survivor track tracks merged flags _ survivor' scan ih => exact .cons (fun _ => rfl) ih
  | case3 => exact List.forall₂_same.2 fun _ _ => id

section
variable {shouldFuse value}

/-- What was open before a scan is in its group, or open still. -/
theorem raised_unmerged (i : Nat) (tracks : List Track) {flags flags' : List Bool}
    (h : List.Forall₂ (fun before after => before = true → after = true) flags flags') :
    (raised i tracks flags flags' ++ unmerged i tracks flags').Perm (unmerged i tracks flags) := by
  induction h generalizing i tracks with
  | nil => cases tracks <;> exact .refl _
  | @cons before after flags flags' himp _ ih =>
    cases tracks with
    | nil => exact .refl _
    | cons track tracks =>
      cases before <;> cases after
      · exact List.perm_middle.trans ((ih (i + 1) tracks).cons _)
      · exact (ih (i + 1) tracks).cons _
      · exact absurd (himp rfl) Bool.false_ne_true
      · exact ih (i + 1) tracks

theorem raised_self (i : Nat) (tracks : List Track) (flags : List Bool) :
    raised i tracks flags flags = [] := by
  induction flags generalizing i tracks with
  | nil => cases tracks <;> rfl
  | cons merged flags ih =>
    cases tracks with
    | nil => rfl
    | cons track tracks => cases merged <;> exact ih (i + 1) tracks

variable (value) in
theorem merge_best (survivor track : Track) :
    let better := if value survivor.confidence < value track.confidence then track else survivor
    (better = survivor ∨ better = track) ∧ value survivor.confidence ≤ value better.confidence ∧
      value track.confidence ≤ value better.confidence := by
  split
  · rename_i hlt
    exact ⟨.inr rfl, hlt.le, le_refl _⟩
  · rename_i hge
    exact ⟨.inl rfl, le_refl _, not_lt.1 hge⟩

/-- One more track merged into the survivor. -/
theorem IsBest.merge {survivor track better out : Track} {merged : List Track}
    (hcases : better = survivor ∨ better = track)
    (hsurvivor : value survivor.confidence ≤ value better.confidence)
    (htrack : value track.confidence ≤ value better.confidence)
    (h : IsBest value ({ better with handoverFlag := 1 } :: merged) out) :
    IsBest value (survivor :: track :: merged) out := by
  obtain ⟨best, hbest, hout, hmax⟩ := h.best
  have hbetter := hmax _ List.mem_cons_self
  have hall : ∀ other ∈ survivor :: track :: merged,
      value other.confidence ≤ value best.confidence := by
    intro other hother
    rcases List.mem_cons.1 hother with rfl | hother
    · exact hsurvivor.trans hbetter
    · rcases List.mem_cons.1 hother with rfl | hother
      · exact htrack.trans hbetter
      · exact hmax other (List.mem_cons_of_mem _ hother)
  refine ⟨?_, fun _ => ?_, fun hone => by simp at hone⟩
  · rcases List.mem_cons.1 hbest with rfl | hbest
    · -- the survivor so far is one of the two, but for the flag
      refine ⟨better, ?_, hout, hall⟩
      rcases hcases with rfl | rfl
      · exact List.mem_cons_self
      · exact List.mem_cons_of_mem _ List.mem_cons_self
    · exact ⟨best, List.mem_cons_of_mem _ (List.mem_cons_of_mem _ hbest), hout, hall⟩
  · cases merged with
    | nil => rw [List.mem_singleton.1 (h.single rfl)]
    | cons other merged => exact h.several (by simp)

/-- **A scan** keeps the best of the survivor and the tracks that it merges into it. -/
theorem absorb_best (i : Nat) (survivor : Track) (tracks : List Track) (flags : List Bool) :
    IsBest value (survivor :: (raised i tracks flags
        (absorb shouldFuse value survivor tracks flags).2).map Prod.fst)
      (absorb shouldFuse value survivor tracks flags).1 := by
  fun_induction absorb shouldFuse value survivor tracks flags generalizing i with
  | case1 survivor track tracks merged flags _ scan ih =>
    have hraised : raised i (track :: tracks) (merged :: flags) (merged :: scan.2) =
        raised (i + 1) tracks flags scan.2 := by
      cases merged <;> rfl
    rw [hraised]
    exact ih (i + 1)
  | case2 survivor track tracks merged flags hmerge better scan ih =>
    obtain ⟨rfl, -⟩ : merged = false ∧ _ := by simpa using hmerge
    obtain ⟨hcases, hsurvivor, htrack⟩ := merge_best value survivor track
    exact (ih (i + 1)).merge hcases hsurvivor htrack
  | case3 =>
    rw [raised_self]
    exact ⟨⟨_, List.mem_singleton_self _, rfl, by simp⟩, fun h => by simp at h,
      fun _ => List.mem_singleton_self _⟩

/-! ## What a scan takes -/

theorem raised_places (i : Nat) (tracks : List Track) (flags flags' : List Bool) :
    ∀ track ∈ raised i tracks flags flags', i ≤ track.2 := by
  fun_induction raised i tracks flags flags' with
  | case1 i track tracks before flags after flags' hraised ih =>
    intro other hother
    rcases List.mem_cons.1 hother with rfl | hother
    · exact le_refl i
    · exact (Nat.le_succ i).trans (ih other hother)
  | case2 i track tracks before flags after flags' hraised ih =>
    exact fun other hother => (Nat.le_succ i).trans (ih other hother)
  | case3 => exact fun other hother => absurd hother List.not_mem_nil

theorem unmerged_places (i : Nat) (tracks : List Track) (flags : List Bool) :
    ∀ track ∈ unmerged i tracks flags, i ≤ track.2 := by
  fun_induction unmerged i tracks flags with
  | case1 i track tracks flags ih =>
    exact fun other hother => (Nat.le_succ i).trans (ih other hother)
  | case2 i track tracks merged flags hmerged ih =>
    intro other hother
    rcases List.mem_cons.1 hother with rfl | hother
    · exact le_refl i
    · exact (Nat.le_succ i).trans (ih other hother)
  | case3 => exact fun other hother => absurd hother List.not_mem_nil

variable (value) in
theorem survivorAt_first (head : Track) {members : List (Track × Nat)} {place : Nat}
    (h : ∀ member ∈ members, place ≤ member.2) : survivorAt value head members place = head := by
  have hnone : members.filter (fun member => member.2 < place) = [] :=
    List.filter_eq_nil_iff.2 fun member hmem => by simpa using h member hmem
  rw [survivorAt, hnone]
  rfl

theorem survivorAt_cons (head : Track) {member : Track × Nat} {members : List (Track × Nat)}
    {place : Nat} (h : member.2 < place) :
    survivorAt value head (member :: members) place =
      survivorAt value (better value head member.1) members place := by
  rw [survivorAt, List.filter_cons_of_pos (by simpa using h)]
  rfl

variable (value) in
/-- The flag of the head makes no difference to what is taken. -/
theorem kinematics_survivorAt_flag (head : Track) (flag : BitVec 8) (members : List (Track × Nat))
    (place : Nat) :
    kinematics (survivorAt value { head with handoverFlag := flag } members place) =
      kinematics (survivorAt value head members place) := by
  have hfold : ∀ (tracks : List Track) (head : Track),
      kinematics (tracks.foldl (better value) { head with handoverFlag := flag }) =
        kinematics (tracks.foldl (better value) head) := by
    intro tracks
    induction tracks with
    | nil => exact fun head => rfl
    | cons track tracks ih =>
      intro head
      by_cases hbetter : value head.confidence < value track.confidence
      · simp only [List.foldl_cons, better, if_pos hbetter]
      · simp only [List.foldl_cons, better, if_neg hbetter]
        exact ih head
  exact hfold _ head

variable (shouldFuse value) in
/-- **What a scan takes** are the tracks that should be fused with the survivor that they meet, and
what it leaves are those that should not. -/
theorem absorb_takes (i : Nat) (survivor : Track) (tracks : List Track) (flags : List Bool) :
    let after := (absorb shouldFuse value survivor tracks flags).2
    let members := raised i tracks flags after
    (∀ track ∈ members, Same shouldFuse (survivorAt value survivor members track.2) track.1) ∧
      ∀ track ∈ unmerged i tracks after,
        ¬ Same shouldFuse (survivorAt value survivor members track.2) track.1 := by
  fun_induction absorb shouldFuse value survivor tracks flags generalizing i with
  | case1 survivor track tracks merged flags hpass scan ih =>
    obtain ⟨htaken, hleft⟩ := ih (i + 1)
    cases merged with
    | true => exact ⟨htaken, hleft⟩
    | false =>
      refine ⟨htaken, fun other hother => ?_⟩
      rcases List.mem_cons.1 hother with rfl | hother
      · -- the track that the scan passes over meets the survivor that it comes with
        have hfirst := survivorAt_first value survivor fun member hmem =>
          (Nat.le_succ i).trans (raised_places (i + 1) tracks flags scan.2 member hmem)
        change ¬ Same shouldFuse (survivorAt value survivor (raised (i + 1) tracks flags scan.2) i) track
        rw [hfirst]
        simpa [Same] using hpass
      · exact hleft other hother
  | case2 survivor track tracks merged flags hmerge better scan ih =>
    obtain ⟨rfl, hsame⟩ : merged = false ∧ Same shouldFuse survivor track := by
      simpa [Same] using hmerge
    obtain ⟨htaken, hleft⟩ := ih (i + 1)
    -- behind the track the survivor is the better of the two
    have hmeets : ∀ other : Track × Nat, i + 1 ≤ other.2 →
        (Same shouldFuse (survivorAt value survivor
            ((track, i) :: raised (i + 1) tracks flags scan.2) other.2) other.1 ↔
          Same shouldFuse (survivorAt value { better with handoverFlag := 1 }
            (raised (i + 1) tracks flags scan.2) other.2) other.1) := by
      intro other hplace
      have hflag := kinematics_survivorAt_flag value better 1
        (raised (i + 1) tracks flags scan.2) other.2
      rw [survivorAt_cons survivor (show (track, i).2 < other.2 from hplace), Same, Same, hflag]
      rfl
    refine ⟨fun other hother => ?_, fun other hother => ?_⟩
    · rcases List.mem_cons.1 hother with rfl | hother
      · change Same shouldFuse (survivorAt value survivor
          ((track, i) :: raised (i + 1) tracks flags scan.2) i) track
        rw [survivorAt_first value survivor fun member hmem => ?_]
        · exact hsame
        · rcases List.mem_cons.1 hmem with rfl | hmem
          · exact le_refl i
          · exact (Nat.le_succ i).trans (raised_places (i + 1) tracks flags scan.2 member hmem)
      · exact (hmeets other (raised_places _ _ _ _ other hother)).2 (htaken other hother)
    · exact fun hsame' => hleft other hother
        ((hmeets other (unmerged_places _ _ _ other hother)).1 hsame')
  | case3 tracks survivor flags hnil =>
    refine ⟨fun other hother => ?_, fun other hother => ?_⟩
    · exact absurd hother (by rw [raised_self]; exact List.not_mem_nil)
    · cases tracks with
      | nil => exact absurd hother List.not_mem_nil
      | cons track tracks =>
        cases flags with
        | nil => exact absurd hother List.not_mem_nil
        | cons merged flags => exact absurd rfl (hnil track tracks merged flags rfl)

/-! ## The outer loop -/

variable (shouldFuse value)

/-- **Every open track comes into one group.** -/
theorem groupsFrom_perm (i : Nat) (tracks : List Track) (flags : List Bool) :
    (groupsFrom shouldFuse value i tracks flags).flatten.Perm (unmerged i tracks flags) := by
  fun_induction groupsFrom shouldFuse value i tracks flags with
  | case1 i track tracks flags ih => exact ih
  | case2 i track tracks merged flags hmerged scan ih =>
    rw [unmerged, if_neg hmerged, List.flatten_cons, List.cons_append]
    exact (((ih.append_left _).trans (raised_unmerged (i + 1) tracks
      (absorb_flags shouldFuse value track tracks flags)))).cons _
  | case3 => simp [unmerged]

/-- The heads come in the order of the list. -/
theorem groupsFrom_heads (i : Nat) (tracks : List Track) (flags : List Bool) :
    ((groupsFrom shouldFuse value i tracks flags).filterMap fun group =>
        group.head?.map Prod.snd).Pairwise (· < ·) ∧
      ∀ head ∈ (groupsFrom shouldFuse value i tracks flags).filterMap fun group =>
        group.head?.map Prod.snd, i ≤ head := by
  fun_induction groupsFrom shouldFuse value i tracks flags with
  | case1 i track tracks flags ih =>
    exact ⟨ih.1, fun head hhead => (ih.2 head hhead).trans' (Nat.le_succ i)⟩
  | case2 i track tracks merged flags hmerged scan ih =>
    rw [List.filterMap_cons]
    refine ⟨List.pairwise_cons.2 ⟨fun head hhead => ih.2 head hhead, ih.1⟩, fun head hhead => ?_⟩
    rcases List.mem_cons.1 hhead with rfl | hhead
    · exact le_refl _
    · exact (ih.2 head hhead).trans' (Nat.le_succ i)
  | case3 => simp

/-- The members of a group are taken by its scan, the tracks of the later groups are not. -/
theorem groupsFrom_takes (i : Nat) (tracks : List Track) (flags : List Bool) :
    (∀ group ∈ groupsFrom shouldFuse value i tracks flags,
      ∀ track ∈ group.tail, Takes shouldFuse value group track) ∧
    (groupsFrom shouldFuse value i tracks flags).Pairwise fun group later =>
      ∀ track ∈ later, ¬ Takes shouldFuse value group track := by
  fun_induction groupsFrom shouldFuse value i tracks flags with
  | case1 i track tracks flags ih => exact ih
  | case2 i track tracks merged flags hmerged scan ih =>
    obtain ⟨htaken, hleft⟩ := absorb_takes shouldFuse value (i + 1) track tracks flags
    refine ⟨fun group hgroup member hmember => ?_, List.pairwise_cons.2 ⟨?_, ih.2⟩⟩
    · rcases List.mem_cons.1 hgroup with rfl | hgroup
      · exact ⟨_, _, rfl, htaken member hmember⟩
      · exact ih.1 group hgroup member hmember
    · rintro later hlater other hother ⟨head, members, heq, hsame⟩
      obtain ⟨rfl, rfl⟩ := List.cons.inj heq
      have hopen := (groupsFrom_perm shouldFuse value (i + 1) tracks scan.2).subset
        (List.mem_flatten_of_mem hlater hother)
      exact hleft other hopen hsame
  | case3 => simp

/-- One track is returned for each group. -/
theorem fuseFrom_best (i : Nat) (tracks : List Track) (flags : List Bool) :
    List.Forall₂ (fun group out => IsBest value (group.map Prod.fst) out)
      (groupsFrom shouldFuse value i tracks flags) (fuseFrom shouldFuse value tracks flags) := by
  fun_induction groupsFrom shouldFuse value i tracks flags with
  | case1 i track tracks flags ih => exact ih
  | case2 i track tracks merged flags hmerged scan ih =>
    rw [fuseFrom, if_neg hmerged]
    exact .cons (absorb_best (i + 1) track tracks flags) ih
  | case3 tracks i flags hnil =>
    cases tracks with
    | nil => exact .nil
    | cons track tracks =>
      cases flags with
      | nil => exact .nil
      | cons merged flags => exact absurd rfl (hnil track tracks merged flags rfl)

/-- **Fusion partitions the tracks** and keeps the best of each group: every track, with its place,
is in one group; the groups come in the order of their heads; the scan of a group takes its members
and none of the tracks in later groups; and for each group the track of greatest confidence is
returned, flagged when there are several and as it was when there is one. -/
theorem fuse_partitions (tracks : List Track) :
    (groups shouldFuse value tracks).flatten.Perm tracks.zipIdx ∧
      ((groups shouldFuse value tracks).filterMap fun group => group.head?.map Prod.snd).Pairwise (· < ·) ∧
      (∀ group ∈ groups shouldFuse value tracks,
        ∀ track ∈ group.tail, Takes shouldFuse value group track) ∧
      ((groups shouldFuse value tracks).Pairwise fun group later =>
        ∀ track ∈ later, ¬ Takes shouldFuse value group track) ∧
      List.Forall₂ (fun group out => IsBest value (group.map Prod.fst) out)
        (groups shouldFuse value tracks) (fuse shouldFuse value tracks) := by
  obtain ⟨htaken, hleft⟩ := groupsFrom_takes shouldFuse value 0 tracks
    (List.replicate tracks.length false)
  refine ⟨?_, (groupsFrom_heads shouldFuse value 0 tracks _).1, htaken, hleft,
    fuseFrom_best shouldFuse value 0 tracks _⟩
  have hopen : ∀ (tracks : List Track) (i : Nat),
      unmerged i tracks (List.replicate tracks.length false) = tracks.zipIdx i := by
    intro tracks
    induction tracks with
    | nil => exact fun i => rfl
    | cons track tracks ih => exact fun i => congrArg _ (ih (i + 1))
  exact hopen tracks 0 ▸ groupsFrom_perm shouldFuse value 0 tracks _

end

/-- A track at rest on the x axis. -/
def onAxis (posX : BitVec 64) (confidence : BitVec 32) : Track where
  trackId := 1
  posX
  posY := 0
  posZ := 0
  velX := 0
  velY := 0
  velZ := 0
  headingDeg := 0
  confidence
  lifecycleState := 1
  sourceArrayId := 1
  handoverFlag := 0
  handoverFrom := 0
  coastFrames := 0
  padding := 0
  createTs := 0
  updateTs := 0

/-- `80.0`. -/
def eighty : BitVec 64 := 0x4054000000000000

/-- `should_fuse` of tracks at rest at 0, 80 and 160 metres, 100 metres being near. -/
def near (a b : Kinematics) : Bool := a.posX == b.posX || a.posX == eighty || b.posX == eighty

/-- Tracks at 0, 160 and 80 metres, the last with the greatest confidence. -/
def betterLast : List Track :=
  [onAxis 0 0x3F000000, onAxis 0x4064000000000000 0x3E800000, onAxis eighty 0x3F400000]

/-- The scan from the first track takes the third, which then is what is returned for both. -/
theorem betterLast_partition :
    (groups near BitVec.toNat betterLast).map (fun group => group.map Prod.snd) = [[0, 2], [1]] ∧
      (groups near BitVec.toNat betterLast).flatten.Perm betterLast.zipIdx ∧
      List.Forall₂ (fun group out => IsBest BitVec.toNat (group.map Prod.fst) out)
        (groups near BitVec.toNat betterLast) (fuse near BitVec.toNat betterLast) :=
  have h := fuse_partitions near BitVec.toNat betterLast
  ⟨by decide, h.1, h.2.2.2.2⟩

end Qdgz300.DataProc
