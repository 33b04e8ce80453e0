import Mathlib.Data.List.Nodup
import Qdgz300.Capture.Proof.PcapFormat

/-!
# The spool of the capture writer

The files that the writer has sealed and not deleted, and the one it has open, are a list of
`SpoolFile`s with consecutive numbers. `Spool` says that they are on the disk under their paths with
their packets, within the limits of the configuration; numbers are kept modulo 2^64, and at most
2^64 - 1 files are retained, so no two of these paths are equal.

* `openNewFile_spool`, `sealCurrentFile_spool`, `rotate_spool`: what the private functions do to it.
* **`writePending_spool`**: a packet goes to the end of the open file.
-/

namespace Qdgz300.Capture

open Bytes FileSystem

/-! ## Paths -/

theorem joinPath_toList (dir : String) :
    ∃ pre : List Char, ∀ file : String, (joinPath dir file).toList = pre ++ file.toList := by
  unfold joinPath
  split
  · exact ⟨[], fun _ => rfl⟩
  · split
    · exact ⟨dir.toList, fun _ => String.toList_append⟩
    · refine ⟨dir.toList ++ ['/'], fun file => ?_⟩
      rw [String.toList_append, String.toList_append]
      rfl

theorem joinPath_inj {dir a b : String} (h : joinPath dir a = joinPath dir b) : a = b := by
  obtain ⟨pre, hpre⟩ := joinPath_toList dir
  have hlist := congrArg String.toList h
  rw [hpre, hpre] at hlist
  exact String.toList_injective (List.append_cancel_left hlist)

theorem joinPath_isEmpty {suffix : String} (dir base : String) (h : suffix.toList ≠ []) :
    (joinPath dir (base ++ suffix)).isEmpty = false := by
  obtain ⟨pre, hpre⟩ := joinPath_toList dir
  cases hempty : (joinPath dir (base ++ suffix)).isEmpty with
  | false => rfl
  | true =>
    have hnil := congrArg String.toList (String.isEmpty_iff.1 hempty)
    rw [hpre, String.toList_append] at hnil
    exact absurd (List.append_eq_nil_iff.1 (List.append_eq_nil_iff.1 hnil).2).2 h

theorem toDigits_inj {i j : Nat} (h : Nat.toDigits 10 i = Nat.toDigits 10 j) : i = j := by
  rw [← Nat.ofDigitChars_ten_toDigits (n := i), h, Nat.ofDigitChars_ten_toDigits]

theorem baseName_toList (nowUs index : BitVec 64) : (baseName nowUs index).toList =
    "receiver_spool_".toList ++ (Nat.toDigits 10 nowUs.toNat ++ '_' :: Nat.toDigits 10 index.toNat) := by
  -- the equation of `baseName` would compare the string literals byte by byte
  delta baseName
  simp only [String.toList_append, Nat.toList_repr, List.append_assoc]
  rfl

theorem baseName_inj {n m i j : BitVec 64} (h : baseName n i = baseName m j) : i = j := by
  have hlist := congrArg String.toList h
  rw [baseName_toList, baseName_toList] at hlist
  have hdigits := (List.append_cons_inj_of_notMem Nat.underscore_not_in_toDigits
    Nat.underscore_not_in_toDigits).1 (List.append_cancel_left hlist)
  exact BitVec.eq_of_toNat_eq (toDigits_inj hdigits.2.2)

theorem sealedPath_inj {dir : String} {n m i j : BitVec 64}
    (h : sealedPath dir n i = sealedPath dir m j) : i = j := by
  have hlist := congrArg String.toList (joinPath_inj h)
  rw [String.toList_append, String.toList_append] at hlist
  exact baseName_inj (String.toList_injective (List.append_cancel_right hlist))

theorem sealedPath_ne_partialPath (dir : String) (n m i j : BitVec 64) :
    sealedPath dir n i ≠ partialPath dir m j := by
  intro h
  have hlist := congrArg (fun s => s.toList.getLast?) (joinPath_inj h)
  simp only [String.toList_append] at hlist
  rw [List.getLast?_append_of_ne_nil _ (by decide), List.getLast?_append_of_ne_nil _ (by decide)] at hlist
  exact absurd hlist (by decide)

theorem sealedPath_isEmpty (dir : String) (n i : BitVec 64) :
    (sealedPath dir n i).isEmpty = false := joinPath_isEmpty dir _ (by decide)

theorem partialPath_isEmpty (dir : String) (n i : BitVec 64) :
    (partialPath dir n i).isEmpty = false := joinPath_isEmpty dir _ (by decide)

/-! ## The files of the writer -/

/-- A file: when it was opened, its number, and what it holds. -/
structure SpoolFile where
  nowUs : BitVec 64
  index : Nat
  packets : List PendingPacket

namespace SpoolFile

def sealed (dir : String) (f : SpoolFile) : String := sealedPath dir f.nowUs
    (BitVec.ofNat 64 f.index)

def part (dir : String) (f : SpoolFile) : String := partialPath dir f.nowUs
    (BitVec.ofNat 64 f.index)

/-- A file is within the limit, unless its only record is not. -/
def Fits (limit : Nat) (f : SpoolFile) : Prop :=
  (fileBytes f.packets).length ≤ limit ∨ f.packets.length ≤ 1

/-- The file with one more packet. -/
def push (f : SpoolFile) (p : PendingPacket) : SpoolFile := { f with packets := f.packets ++ [p] }

theorem sealed_ne_part (dir : String) (f g : SpoolFile) : f.sealed dir ≠ g.part dir :=
  sealedPath_ne_partialPath _ _ _ _ _

end SpoolFile

/-- The file `f` is open. -/
structure Opened (s : PcapWriter) (f : SpoolFile) : Prop where
  dir : s.config.spoolDir.isEmpty = false
  stream : s.currentFile = some (f.part s.config.spoolDir)
  temp : s.currentTempFilePath = f.part s.config.spoolDir
  sealed : s.currentSealedFilePath = f.sealed s.config.spoolDir
  content : s.files (f.part s.config.spoolDir) = some (fileBytes f.packets)
  size : s.currentFileSize = BitVec.ofNat 64 (fileBytes f.packets).length
  fits : f.Fits s.maxFileSizeBytes.toNat
  capturable : ∀ p ∈ f.packets, Capturable p

/-- The file that is open, or that there is none. -/
def Current (s : PcapWriter) : Option SpoolFile → Prop
  | none => s.currentFile = none ∧ s.currentTempFilePath = "" ∧ s.currentSealedFilePath = ""
  | some f => Opened s f

/-- Consecutive numbers. -/
def Numbered (files : List SpoolFile) (next : Nat) : Prop :=
  ∃ a, files.map (·.index) = List.range' a files.length ∧ a + files.length = next

/-- The sealed files `files` and the open one. -/
structure Spool (s : PcapWriter) (files : List SpoolFile) (current : Option SpoolFile) : Prop where
  recent : s.recentFiles = files.map (·.sealed s.config.spoolDir)
  count : files.length ≤ s.keepCount
  content : ∀ f ∈ files, s.files (f.sealed s.config.spoolDir) = some (fileBytes f.packets)
  fits : ∀ f ∈ files, f.Fits s.maxFileSizeBytes.toNat
  numbered : ∃ next, Numbered (files ++ current.toList) next ∧ s.fileIndex = BitVec.ofNat 64 next
  current : Current s current

section
variable {s s' : PcapWriter} {files : List SpoolFile} {current : Option SpoolFile} {f : SpoolFile}
  {packet : PendingPacket} {nowUs : BitVec 64}

theorem spool_new (config : PcapWriterConfig) (fs : FileSystem String) :
    Spool { config, files := fs } [] none := by
  refine ⟨rfl, Nat.zero_le _, nofun, nofun, ⟨0, ⟨0, rfl, rfl⟩, rfl⟩, rfl, rfl, rfl⟩

/-- The counters, the queue and the flags do not matter. -/
theorem Spool.frame (h : Spool s files current) (h1 : s'.config = s.config)
    (h2 : s'.files = s.files)
    (h3 : s'.currentFile = s.currentFile) (h4 : s'.currentFileSize = s.currentFileSize)
    (h5 : s'.fileIndex = s.fileIndex) (h6 : s'.recentFiles = s.recentFiles)
    (h7 : s'.currentTempFilePath = s.currentTempFilePath)
    (h8 : s'.currentSealedFilePath = s.currentSealedFilePath) : Spool s' files current := by
  have hmax : s'.maxFileSizeBytes = s.maxFileSizeBytes := by
    rw [PcapWriter.maxFileSizeBytes, PcapWriter.maxFileSizeBytes, h1]
  have hkeep : s'.keepCount = s.keepCount := by rw [PcapWriter.keepCount, PcapWriter.keepCount, h1]
  refine ⟨?_, ?_, ?_, ?_, ?_, ?_⟩
  · rw [h6, h1]
    exact h.recent
  · rw [hkeep]
    exact h.count
  · rw [h2, h1]
    exact h.content
  · rw [hmax]
    exact h.fits
  · rw [h5]
    exact h.numbered
  · cases current with
    | none =>
      obtain ⟨hstream, htemp, hsealed⟩ := h.current
      exact ⟨h3.trans hstream, h7.trans htemp, h8.trans hsealed⟩
    | some f =>
      obtain ⟨hdir, hstream, htemp, hsealed, hcontent, hsize, hfits, hcap⟩ := h.current
      rw [← h1] at hdir hstream htemp hsealed hcontent
      rw [← h2] at hcontent
      rw [← hmax] at hfits
      exact ⟨hdir, h3.trans hstream, h7.trans htemp, h8.trans hsealed, hcontent, h4.trans hsize, hfits,
        hcap⟩

theorem Numbered.index_eq {next i j : Nat} {all : List SpoolFile} (h : Numbered all next)
    (hlen : all.length ≤ 2 ^ 64) (hi : i ∈ all.map (·.index)) (hj : j ∈ all.map (·.index))
    (heq : BitVec.ofNat 64 i = BitVec.ofNat 64 j) : i = j := by
  obtain ⟨a, ha, -⟩ := h
  rw [ha, List.mem_range'_1] at hi hj
  have hmod := congrArg BitVec.toNat heq
  rw [BitVec.toNat_ofNat, BitVec.toNat_ofNat] at hmod
  omega

/-- **The paths of a spool are distinct.** -/
theorem Numbered.paths_nodup {next : Nat} {all : List SpoolFile} (h : Numbered all next)
    (hlen : all.length ≤ 2 ^ 64) (dir : String) : (all.map (·.sealed dir)).Nodup := by
  have hindex : (all.map (·.index)).Nodup := by
    obtain ⟨a, ha, -⟩ := h
    rw [ha]
    exact List.nodup_range'
  rw [List.Nodup, List.pairwise_map] at hindex ⊢
  refine hindex.imp_of_mem fun hf hg hne heq => hne ?_
  exact h.index_eq hlen (List.mem_map_of_mem hf) (List.mem_map_of_mem hg) (sealedPath_inj heq)

theorem Numbered.tail {next : Nat} {all : List SpoolFile} (h : Numbered (f :: all) next) :
    Numbered all next := by
  obtain ⟨a, ha, hnext⟩ := h
  rw [List.map_cons, List.length_cons, List.range'_succ] at ha
  refine ⟨a + 1, (List.cons.inj ha).2, ?_⟩
  rw [List.length_cons] at hnext
  omega

theorem Numbered.snoc {next : Nat} {all : List SpoolFile} (h : Numbered all next)
    (hf : f.index = next) : Numbered (all ++ [f]) (next + 1) := by
  obtain ⟨a, ha, rfl⟩ := h
  refine ⟨a, ?_, ?_⟩
  · rw [List.map_append, ha, List.length_append, List.length_singleton, List.range'_concat, List.map_singleton,
      hf, Nat.one_mul]
  · rw [List.length_append, List.length_singleton, Nat.add_assoc]

theorem keepCount_lt (s : PcapWriter) : s.keepCount < 2 ^ 64 := by
  have := s.config.maxFiles.isLt
  rw [PcapWriter.keepCount]
  omega

/-! ## Opening and sealing -/

/-- **`open_new_file`**, when the file operations succeed. -/
theorem openNewFile_spool (h : Spool s files none) (hdir : s.config.spoolDir.isEmpty = false)
    (nowUs : BitVec 64) :
    (s.openNewFile {} nowUs).2 = true ∧
      ∃ f, f.packets = [] ∧ Spool (s.openNewFile {} nowUs).1 files (some f) := by
  obtain ⟨next, hnum, hindex⟩ := h.numbered
  have hopen : s.openNewFile {} nowUs = (PcapWriter.writeGlobalHeader {} { s with
      fileIndex := s.fileIndex + 1
      currentSealedFilePath := sealedPath s.config.spoolDir nowUs s.fileIndex
      currentTempFilePath := partialPath s.config.spoolDir nowUs s.fileIndex
      files := s.files.create (partialPath s.config.spoolDir nowUs s.fileIndex)
      currentFile := some (partialPath s.config.spoolDir nowUs s.fileIndex) }, true) := by
    unfold PcapWriter.openNewFile
    simp [hdir]
  rw [hopen]
  refine ⟨rfl, ⟨nowUs, next, []⟩, rfl, ?_⟩
  rw [hindex]
  constructor
  · exact h.recent
  · exact h.count
  · intro g hg
    have hne : g.sealed s.config.spoolDir ≠ partialPath s.config.spoolDir nowUs
      (BitVec.ofNat 64 next) :=
      sealedPath_ne_partialPath _ _ _ _ _
    simp only [PcapWriter.writeGlobalHeader, Option.elim_some, if_true]
    rw [append_ne hne, create_ne hne]
    exact h.content g hg
  · exact h.fits
  · rw [Option.toList_none, List.append_nil] at hnum
    refine ⟨next + 1, hnum.snoc rfl, ?_⟩
    simp only [PcapWriter.writeGlobalHeader]
    rw [BitVec.ofNat_add]
    rfl
  · refine ⟨hdir, rfl, rfl, rfl, ?_, rfl, .inr (Nat.zero_le _), nofun⟩
    simp only [PcapWriter.writeGlobalHeader, Option.elim_some, if_true]
    exact append_self create_self _

/-- The loop that deletes the oldest files keeps the last ones. -/
theorem retain_spec (dir : String) (keep next : Nat) : ∀ (all : List SpoolFile)
    (fs : FileSystem String),
    Numbered all next → (all.map (·.sealed dir)).Nodup →
    (∀ f ∈ all, fs (f.sealed dir) = some (fileBytes f.packets)) →
    ∃ gone kept, all = gone ++ kept ∧ kept.length ≤ keep ∧ Numbered kept next ∧
      (PcapWriter.retain keep (all.map (·.sealed dir)) fs).1 = kept.map (·.sealed dir) ∧
      ∀ f ∈ kept, (PcapWriter.retain keep (all.map (·.sealed dir)) fs).2 (f.sealed dir) =
        some (fileBytes f.packets) := by
  intro all
  induction all with
  | nil => exact fun fs hnum _ _ => ⟨[], [], rfl, Nat.zero_le _, hnum, rfl, nofun⟩
  | cons f all ih =>
    intro fs hnum hnodup hcontent
    obtain ⟨hfresh, hnodup'⟩ := List.nodup_cons.1 hnodup
    rw [List.map_cons, PcapWriter.retain]
    split
    case isTrue =>
      have hrest : ∀ g ∈ all, fs.remove (f.sealed dir) (g.sealed dir) =
        some (fileBytes g.packets) := by
        intro g hg
        have hne : g.sealed dir ≠ f.sealed dir := fun heq =>
          hfresh (List.mem_map.2 ⟨g, hg, heq⟩)
        rw [remove_ne hne]
        exact hcontent g (List.mem_cons_of_mem _ hg)
      obtain ⟨gone, kept, rfl, hkept⟩ := ih _ hnum.tail hnodup' hrest
      exact ⟨f :: gone, kept, rfl, hkept⟩
    case isFalse hle =>
      refine ⟨[], f :: all, rfl, ?_, hnum, rfl, hcontent⟩
      rw [List.length_cons, List.length_map] at hle
      rw [List.length_cons]
      omega

/-- **`seal_current_file`**, when the file operations succeed. -/
theorem sealCurrentFile_spool (h : Spool s files (some f)) :
    (s.sealCurrentFile {}).2 = true ∧
      ∃ gone kept, files ++ [f] = gone ++ kept ∧ Spool (s.sealCurrentFile {}).1 kept none := by
  obtain ⟨next, hnum, hindex⟩ := h.numbered
  have hopen : Opened s f := h.current
  have hlen : (files ++ [f]).length ≤ 2 ^ 64 := by
    have hcount := h.count
    have hkeep := keepCount_lt s
    rw [List.length_append, List.length_singleton]
    omega
  have hnodup := hnum.paths_nodup hlen s.config.spoolDir
  have hcontent : ∀ g ∈ files ++ [f], s.files.rename (f.part s.config.spoolDir)
      (f.sealed s.config.spoolDir) (g.sealed s.config.spoolDir) = some (fileBytes g.packets) := by
    intro g hg
    rcases List.mem_append.1 hg with hg | hg
    · have hne : g.sealed s.config.spoolDir ≠ f.sealed s.config.spoolDir := by
        rw [Option.toList_some, List.map_append] at hnodup
        intro heq
        exact (List.nodup_append.1 hnodup).2.2 _ (List.mem_map_of_mem hg) _
          (List.mem_singleton_self _) heq
      rw [rename_ne (g.sealed_ne_part _ f) hne]
      exact h.content g hg
    · rw [List.mem_singleton.1 hg, rename_target (f.sealed_ne_part _ f).symm]
      exact hopen.content
  obtain ⟨gone, kept, hsplit, hcount, hnum', hrecent, hkept⟩ :=
    retain_spec s.config.spoolDir s.keepCount next _ _ hnum hnodup hcontent
  have hseal : s.sealCurrentFile {} = (PcapWriter.clearPaths { s with
      currentFile := none
      files := (PcapWriter.retain s.keepCount ((files ++ [f]).map (·.sealed s.config.spoolDir))
        (s.files.rename (f.part s.config.spoolDir) (f.sealed s.config.spoolDir))).2
      recentFiles := (PcapWriter.retain s.keepCount ((files ++ [f]).map (·.sealed s.config.spoolDir))
        (s.files.rename (f.part s.config.spoolDir) (f.sealed s.config.spoolDir))).1
      lastSealedFilePath := f.sealed s.config.spoolDir
      currentFileSize := 0 }, true) := by
    have htemp : (f.part s.config.spoolDir).isEmpty = false := partialPath_isEmpty _ _ _
    have hsealed : (f.sealed s.config.spoolDir).isEmpty = false := sealedPath_isEmpty _ _ _
    unfold PcapWriter.sealCurrentFile
    simp only [hopen.temp, hopen.sealed, htemp, hsealed, h.recent, List.map_append, List.map_singleton,
      Bool.false_eq_true, or_self, if_false]
    rw [if_neg (by decide)]
  rw [hseal]
  refine ⟨rfl, gone, kept, hsplit, ?_⟩
  have hfits : ∀ g ∈ files ++ [f], g.Fits s.maxFileSizeBytes.toNat := by
    intro g hg
    rcases List.mem_append.1 hg with hg | hg
    · exact h.fits g hg
    · rw [List.mem_singleton.1 hg]
      exact hopen.fits
  constructor
  · exact hrecent
  · exact hcount
  · exact hkept
  · exact fun g hg => hfits g (hsplit ▸ List.mem_append_right _ hg)
  · refine ⟨next, ?_, hindex⟩
    rw [Option.toList_none, List.append_nil]
    exact hnum'
  · exact ⟨rfl, rfl, rfl⟩

theorem sealCurrentFile_closed (h : Spool s files none) :
    Spool (s.sealCurrentFile {}).1 files none := by
  obtain ⟨hstream, htemp, hsealed⟩ := h.current
  have hseal : s.sealCurrentFile {} = (PcapWriter.clearPaths { s with currentFile := none }, true) := by
    unfold PcapWriter.sealCurrentFile
    rw [htemp]
    rfl
  rw [hseal]
  exact h.frame rfl rfl hstream.symm rfl rfl rfl htemp.symm hsealed.symm

/-! ## Writing a packet -/

theorem maxFileSizeBytes_le (s : PcapWriter) : s.maxFileSizeBytes.toNat ≤ 2 ^ 64 - 2 ^ 20 := by
  have hlt := s.maxFileSizeBytes.isLt
  have hdvd : 2 ^ 20 ∣ s.maxFileSizeBytes.toNat := by
    rw [PcapWriter.maxFileSizeBytes, BitVec.toNat_mul]
    exact (Nat.dvd_mod_iff (by decide)).2 (Nat.dvd_mul_left_of_dvd (by decide) _)
  omega

theorem Opened.length_le (h : Opened s f) :
    (fileBytes f.packets).length ≤ max s.maxFileSizeBytes.toNat 65575 := by
  rcases h.fits with hle | hone
  · omega
  · match hp : f.packets, hone with
    | [], _ =>
      have : (fileBytes []).length = 24 := by decide
      omega
    | [p], _ =>
      have hlen := length_fileBytes [] p
      have hcap := (h.capturable p (hp ▸ List.mem_singleton_self _)).le
      rw [List.nil_append, show (fileBytes []).length = 24 by decide] at hlen
      omega

/-- The test of `rotate_file_if_needed`, in numbers. -/
theorem Opened.room_iff (h : Opened s f) (hp : Capturable packet) :
    s.currentFileSize + (16 + BitVec.ofNat 64 packet.data.length) ≤ s.maxFileSizeBytes ↔
      (fileBytes (f.packets ++ [packet])).length ≤ s.maxFileSizeBytes.toNat := by
  have hlen := h.length_le
  have hmax := maxFileSizeBytes_le s
  have hdata := hp.le
  have hsum : (s.currentFileSize + (16 + BitVec.ofNat 64 packet.data.length)).toNat =
      (fileBytes (f.packets ++ [packet])).length := by
    rw [h.size, length_fileBytes, BitVec.toNat_add, BitVec.toNat_add, BitVec.toNat_ofNat,
      BitVec.toNat_ofNat]
    simp only [BitVec.ofNat_eq_ofNat, BitVec.toNat_ofNat]
    omega
  rw [BitVec.le_def, hsum]

/-- A packet at the end of the open file. -/
theorem Spool.push (h : Spool s files (some f)) (hp : Capturable packet)
    (hfits : (f.push packet).Fits s.maxFileSizeBytes.toNat)
    (hsize : s.pendingRecordSize = 16 + BitVec.ofNat 64 packet.data.length) :
    Spool { s with
      files := s.files.append (f.part s.config.spoolDir) packet.record
      currentFileSize := s.currentFileSize + s.pendingRecordSize
      packetsWritten := s.packetsWritten + 1
      pendingRecordSize := 0 } files (some (f.push packet)) := by
  have hopen : Opened s f := h.current
  obtain ⟨next, ⟨a, hrange, hnext⟩, hindex⟩ := h.numbered
  constructor
  · exact h.recent
  · exact h.count
  · intro g hg
    simp only [append_ne (g.sealed_ne_part s.config.spoolDir f)]
    exact h.content g hg
  · exact h.fits
  · refine ⟨next, ⟨a, ?_, ?_⟩, hindex⟩
    · simpa [SpoolFile.push] using hrange
    · simpa using hnext
  · refine ⟨hopen.dir, hopen.stream, hopen.temp, hopen.sealed, ?_, ?_, hfits, ?_⟩
    · exact (append_self hopen.content _).trans (congrArg some (fileBytes_append _ _))
    · simp only [SpoolFile.push]
      rw [hopen.size, hsize, length_fileBytes, BitVec.ofNat_add, BitVec.ofNat_add]
      rfl
    · intro p hmem
      rcases List.mem_append.1 hmem with hmem | hmem
      · exact hopen.capturable p hmem
      · rw [List.mem_singleton.1 hmem]
        exact hp

/-- What the functions on the files leave alone. -/
structure SameQueue (s s' : PcapWriter) : Prop where
  config : s'.config = s.config
  pending : s'.pendingPackets = s.pendingPackets
  accepting : s'.acceptingPackets = s.acceptingPackets
  recording : s'.recording = s.recording
  recordSize : s'.pendingRecordSize = s.pendingRecordSize

theorem SameQueue.trans {s'' : PcapWriter} (h : SameQueue s s') (h' : SameQueue s' s'') :
    SameQueue s s'' :=
  ⟨h'.config.trans h.config, h'.pending.trans h.pending, h'.accepting.trans h.accepting,
    h'.recording.trans h.recording, h'.recordSize.trans h.recordSize⟩

theorem openNewFile_same (io : Io) (nowUs : BitVec 64) (s : PcapWriter) :
    SameQueue s (s.openNewFile io nowUs).1 := by
  unfold PcapWriter.openNewFile
  split
  · exact ⟨rfl, rfl, rfl, rfl, rfl⟩
  · simp only
    split
    · exact ⟨rfl, rfl, rfl, rfl, rfl⟩
    · split <;> exact ⟨rfl, rfl, rfl, rfl, rfl⟩

theorem sealCurrentFile_same (io : Io) (s : PcapWriter) : SameQueue s (s.sealCurrentFile io).1 := by
  unfold PcapWriter.sealCurrentFile
  simp only
  split
  · exact ⟨rfl, rfl, rfl, rfl, rfl⟩
  · split <;> exact ⟨rfl, rfl, rfl, rfl, rfl⟩

/-- **`rotate_file_if_needed`** leaves room in the open file, or opens a new one. -/
theorem rotate_spool (h : Spool s files (some f)) (hp : Capturable packet)
    (hsize : s.pendingRecordSize = 16 + BitVec.ofNat 64 packet.data.length) (nowUs : BitVec 64) :
    ∃ gone kept g, files.flatMap (·.packets) ++ f.packets =
        gone ++ kept.flatMap (·.packets) ++ SpoolFile.packets g ∧
      Spool (s.rotateFileIfNeeded {} nowUs) kept (some g) ∧
      (g.push packet).Fits s.maxFileSizeBytes.toNat ∧
      SameQueue s (s.rotateFileIfNeeded {} nowUs) := by
  have hopen : Opened s f := h.current
  unfold PcapWriter.rotateFileIfNeeded
  rw [if_neg (by simp [hopen.stream])]
  split
  case isTrue hroom =>
    rw [hsize, hopen.room_iff hp] at hroom
    exact ⟨[], files, f, rfl, h, .inl hroom, rfl, rfl, rfl, rfl, rfl⟩
  case isFalse =>
    obtain ⟨hsealed, gone, kept, hsplit, hspool⟩ := sealCurrentFile_spool h
    have hsame := sealCurrentFile_same {} s
    cases hseal : s.sealCurrentFile {} with
    | mk w ok =>
      rw [hseal] at hsealed hspool hsame
      obtain rfl : ok = true := hsealed
      have hspool : Spool { w with rotatedFiles := w.rotatedFiles + 1 } kept none :=
        hspool.frame rfl rfl rfl rfl rfl rfl rfl rfl
      have hdir : w.config.spoolDir.isEmpty = false := hsame.config ▸ hopen.dir
      obtain ⟨hopened, g, hg, hspool'⟩ := openNewFile_spool hspool hdir nowUs
      have hsame' := openNewFile_same {} nowUs { w with rotatedFiles := w.rotatedFiles + 1 }
      simp only
      rw [if_neg (by decide), hopened, if_neg (by decide)]
      refine ⟨gone.flatMap (·.packets), kept, g, ?_, hspool', .inr ?_, ?_⟩
      · have hpackets := congrArg (List.flatMap SpoolFile.packets) hsplit
        rw [List.flatMap_append, List.flatMap_append, List.flatMap_singleton] at hpackets
        rw [hg, List.append_nil]
        exact hpackets
      · rw [SpoolFile.push, hg]
        exact Nat.le_refl 1
      · have hcounted : SameQueue s { w with rotatedFiles := w.rotatedFiles + 1 } :=
          ⟨hsame.config, hsame.pending, hsame.accepting, hsame.recording, hsame.recordSize⟩
        exact hcounted.trans hsame'

/-- **A packet is written** to the end of the open file, which may be a new one. -/
theorem writePending_spool (h : Spool s files (some f)) (hp : Capturable packet)
    (nowUs : BitVec 64) :
    ∃ w gone kept g, s.writePending {} nowUs packet = (w, true) ∧
      files.flatMap (·.packets) ++ f.packets ++ [packet] =
        gone ++ kept.flatMap (·.packets) ++ SpoolFile.packets g ∧
      Spool w kept (some g) ∧ w.config = s.config ∧ w.pendingPackets = s.pendingPackets ∧
      w.acceptingPackets = s.acceptingPackets ∧ w.recording = s.recording := by
  have hopen : Opened s f := h.current
  have hready : Spool { s with pendingRecordSize := 16 + BitVec.ofNat 64 packet.data.length } files
      (some f) := h.frame rfl rfl rfl rfl rfl rfl rfl rfl
  obtain ⟨gone, kept, g, hpackets, hspool, hfits, hsame⟩ := rotate_spool hready hp rfl nowUs
  unfold PcapWriter.writePending
  rw [if_neg (by simp [hopen.stream])]
  generalize PcapWriter.rotateFileIfNeeded {} nowUs
    { s with pendingRecordSize := 16 + BitVec.ofNat 64 packet.data.length } = r at hspool hsame ⊢
  have hopen' : Opened r g := hspool.current
  have hfits' : (g.push packet).Fits r.maxFileSizeBytes.toNat := by
    rw [PcapWriter.maxFileSizeBytes, hsame.config]
    exact hfits
  simp only
  split
  case h_1 hnone =>
    rw [hopen'.stream] at hnone
    cases hnone
  case h_2 path hsome =>
    rw [hopen'.stream] at hsome
    cases hsome
    rw [if_neg (by decide)]
    refine ⟨_, gone, kept, g.push packet, rfl, ?_, hspool.push hp hfits' hsame.recordSize, hsame.config,
      hsame.pending, hsame.accepting, hsame.recording⟩
    rw [hpackets, SpoolFile.push, List.append_assoc]

end

end Qdgz300.Capture
