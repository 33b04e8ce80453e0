import Qdgz300.Gateway.TrackDataSerializer

/-!
# What the track frame codec accepts and gives back

`deserialize_takes`: the reader makes `decoded data` of the first `35 + 96 * track_count` bytes. The
two hand-written field lists meet in the image `header`, which `serialize` writes in front of the
tracks and whose values the reader returns.
-/

namespace Qdgz300.Gateway

open Bytes

variable {data : List Byte}

/-- The fields in front of the tracks, in the order of the source's two lists. -/
def header : Image (BitVec 64 × BitVec 64 × BitVec 64 × Byte × Byte × BitVec 16 × BitVec 32 × Bool ×
    BitVec 16) :=
  u64.pair <| u64.pair <| u64.pair <| u8.pair <| u8.pair <| u16.pair <| u32.pair <| Image.bool.pair u16

def headerOf (frame : TrackFrame) : BitVec 64 × BitVec 64 × BitVec 64 × Byte × Byte × BitVec 16 ×
    BitVec 32 × Bool × BitVec 16 :=
  (frame.frameSeq, frame.dataTimestampNs, frame.backendInstanceId, frame.clockDomain,
    frame.coverageMask, frame.trackCount, frame.systemQualityFlags, frame.isTruncated,
    frame.droppedCount)

/-- The frame that lies at the front of a buffer. -/
def decoded (data : List Byte) : TrackFrame where
  frameSeq := u64.value (slice data 0 8)
  dataTimestampNs := u64.value (slice data 8 8)
  backendInstanceId := u64.value (slice data 16 8)
  clockDomain := u8.value (slice data 24 1)
  coverageMask := u8.value (slice data 25 1)
  trackCount := le16 data 26
  systemQualityFlags := u32.value (slice data 28 4)
  isTruncated := Image.bool.value (slice data 32 1)
  droppedCount := u16.value (slice data 33 2)
  tracks := (track.values data 35 (le16 data 26).toNat).toList
  counted := (List.Vector.toList_length _).ge

/-! ## Reading -/

theorem readBytes_takes {α : Type} (I : Image α) (off : Nat) :
    Takes data "buffer underflow" (readBytes I data) off I.size (I.value (slice data off I.size)) :=
  .copy I

theorem readTracks_takes : ∀ (n off : Nat), off ≤ data.length →
    Takes data "buffer underflow" (readTracks data n) off (track.size * n) (track.values data off n)
  | 0, _, h => .pure _ h
  | n + 1, off, _ => by
    have hrest : ∀ t : Track, off + track.size ≤ data.length →
        Takes data "buffer underflow" (do return t ::ᵥ (← readTracks data n)) (off + track.size)
          (track.size * n) (t ::ᵥ track.values data (off + track.size) n) := by
      intro t h
      exact .bind (k := fun ts => pure (t ::ᵥ ts)) (readTracks_takes n _ h) fun h' => .pure _ h'
    rw [Nat.mul_succ, Nat.add_comm (track.size * n)]
    exact (readBytes_takes track off).bind fun h => hrest _ h

/-- **The reader** takes the fields and the counted tracks. -/
theorem deserialize_takes :
    Takes data "buffer underflow" (deserialize data) 0 (35 + 96 * (le16 data 26).toNat)
      (decoded data) := by
  have hread : Takes data "buffer underflow" (deserialize data) 0
      (8 + (8 + (8 + (1 + (1 + (2 + (4 + (1 + (2 + (96 * (le16 data 26).toNat + 0))))))))))
      (decoded data) := by
    apply (readBytes_takes u64 0).bind
    intro _
    apply (readBytes_takes u64 8).bind
    intro _
    apply (readBytes_takes u64 16).bind
    intro _
    apply (readBytes_takes u8 24).bind
    intro _
    apply (readBytes_takes u8 25).bind
    intro _
    apply (readBytes_takes u16 26).bind
    intro _
    apply (readBytes_takes u32 28).bind
    intro _
    apply (readBytes_takes Image.bool 32).bind
    intro _
    apply (readBytes_takes u16 33).bind
    intro h
    exact (readTracks_takes _ 35 h).bind fun h' => .pure _ h'
  rw [show 35 + 96 * (le16 data 26).toNat =
    8 + (8 + (8 + (1 + (1 + (2 + (4 + (1 + (2 + (96 * (le16 data 26).toNat + 0))))))))) by omega]
  exact hread

theorem deserialize_ok (h : 35 + 96 * (le16 data 26).toNat ≤ data.length) :
    ((deserialize data).exec {}).1 = .ok (decoded data) :=
  ((deserialize_takes {} rfl nofun).2.1 (by rwa [Nat.zero_add])).1

theorem deserialize_short (h : data.length < 35 + 96 * (le16 data 26).toNat) :
    ((deserialize data).exec {}).1 = .error "buffer underflow" :=
  (deserialize_takes {} rfl nofun).2.2 (by rwa [Nat.zero_add])

theorem deserialize_inside : ((deserialize data).exec {}).2.Inside data :=
  (deserialize_takes {} rfl nofun).1

/-! ## Writing -/

theorem foldl_appendBytes {α : Type} (I : Image α) :
    ∀ (as : List α) (out : List Byte), as.foldl (appendBytes I) out = out ++ as.flatMap I.bytes
  | [], out => (List.append_nil out).symm
  | a :: as, out => by
    rw [List.foldl_cons, foldl_appendBytes I as, appendBytes, List.flatMap_cons, List.append_assoc]

theorem serialize_eq (frame : TrackFrame) :
    serialize frame = header.bytes (headerOf frame) ++
      (frame.tracks.take frame.trackCount.toNat).flatMap track.bytes := by
  simp [serialize, foldl_appendBytes, appendBytes, header, headerOf, Image.pair]

/-! ## Both ways -/

theorem header_value : header.value (slice data 0 35) = headerOf (decoded data) := by
  simp only [header, Image.pair, headerOf, decoded, slice_slice, u64, u32, u16, u8, Image.word,
    Image.bool, Nat.reduceAdd, Nat.reduceLeDiff]
  rfl

/-- Any 35 bytes are those of some fields, but for the byte of the flag. -/
theorem header_faithful (hlen : 35 ≤ data.length)
    (hflag : slice data 32 1 = [0] ∨ slice data 32 1 = [1]) :
      header.Faithful (slice data 0 35) := by
  have hword : ∀ {k : Nat} (off : Nat), off + k ≤ 35 → (Image.word k).Faithful (slice data off k) :=
    fun off h => Image.word_faithful (by omega)
  apply Image.pair_faithful (hword 0 (by decide))
  apply Image.pair_faithful (hword 8 (by decide))
  apply Image.pair_faithful (hword 16 (by decide))
  apply Image.pair_faithful (hword 24 (by decide))
  apply Image.pair_faithful (hword 25 (by decide))
  apply Image.pair_faithful (hword 26 (by decide))
  apply Image.pair_faithful (hword 28 (by decide))
  apply Image.pair_faithful (Image.bool_faithful hflag)
  exact hword 33 (by decide)

/-- Any 96 bytes are those of some track. -/
theorem track_faithful {bs : List Byte} (hlen : bs.length = 96) : track.Faithful bs := by
  have hword : ∀ {k : Nat} (off : Nat), off + k ≤ 96 → (Image.word k).Faithful (slice bs off k) :=
    fun off h => Image.word_faithful (by omega)
  have hwhole : slice bs 0 96 = bs := List.take_of_length_le hlen.le
  rw [← hwhole]
  apply Image.iso_faithful
  apply Image.pair_faithful (hword 0 (by decide))
  apply Image.pair_faithful (hword 8 (by decide))
  apply Image.pair_faithful (hword 16 (by decide))
  apply Image.pair_faithful (hword 24 (by decide))
  apply Image.pair_faithful (hword 32 (by decide))
  apply Image.pair_faithful (hword 40 (by decide))
  apply Image.pair_faithful (hword 48 (by decide))
  apply Image.pair_faithful (hword 56 (by decide))
  apply Image.pair_faithful (hword 64 (by decide))
  apply Image.pair_faithful (hword 68 (by decide))
  apply Image.pair_faithful (hword 69 (by decide))
  apply Image.pair_faithful (hword 70 (by decide))
  apply Image.pair_faithful (hword 71 (by decide))
  apply Image.pair_faithful (hword 72 (by decide))
  apply Image.pair_faithful (hword 76 (by decide))
  apply Image.pair_faithful (hword 80 (by decide))
  exact hword 88 (by decide)

theorem length_serialize (frame : TrackFrame) :
    (serialize frame).length = 35 + 96 * frame.trackCount.toNat := by
  have hlen : ∀ ts : List Track, (ts.flatMap track.bytes).length = 96 * ts.length := by
    intro ts
    induction ts with
    | nil => rfl
    | cons t ts ih =>
      rw [List.flatMap_cons, List.length_append, ih, track.length_bytes, List.length_cons,
        show track.size = 96 from rfl]
      omega
  rw [serialize_eq, List.length_append, header.length_bytes, hlen,
    List.length_take_of_le frame.counted]
  rfl

/-- Writing, then looking at the front of the bytes. -/
theorem decoded_serialize {frame : TrackFrame}
    (hcount : frame.tracks.length = frame.trackCount.toNat) : decoded (serialize frame) =
      frame := by
  have hbytes := serialize_eq frame
  rw [← hcount, List.take_length] at hbytes
  have hfront : slice (serialize frame) 0 35 = header.bytes (headerOf frame) := by
    rw [hbytes]
    exact List.take_left' (header.length_bytes _)
  have hheader : headerOf (decoded (serialize frame)) = headerOf frame := by
    rw [← header_value, hfront, header.value_bytes]
  simp only [headerOf, Prod.mk.injEq] at hheader
  obtain ⟨h1, h2, h3, h4, h5, h6, h7, h8, h9⟩ := hheader
  have htracks : (decoded (serialize frame)).tracks = frame.tracks := by
    have hread := track.values_bytes frame.tracks (header.bytes (headerOf frame))
    rw [← hbytes, header.length_bytes, hcount] at hread
    have hle : (le16 (serialize frame) 26) = frame.trackCount := h6
    simp only [decoded]
    rw [hle]
    exact hread
  exact TrackFrame.ext h1 h2 h3 h4 h5 h6 h7 h8 h9 htracks

/-- Writing the frame at the front of a buffer. -/
theorem serialize_decoded (hlen : 35 + 96 * (le16 data 26).toNat ≤ data.length)
    (hflag : slice data 32 1 = [0] ∨ slice data 32 1 = [1]) :
    serialize (decoded data) = data.take (35 + 96 * (le16 data 26).toNat) := by
  have hheader : header.bytes (headerOf (decoded data)) = slice data 0 35 := by
    rw [← header_value]
    exact header_faithful (by omega) hflag
  have htake : (decoded data).tracks.take (decoded data).trackCount.toNat = (decoded data).tracks :=
    List.take_of_length_le (List.Vector.toList_length _).le
  have htracks := Image.bytes_values (I := track) (fun _ => track_faithful) _ 35 hlen
  rw [serialize_eq, hheader, htake]
  calc slice data 0 35 ++ (decoded data).tracks.flatMap track.bytes
      = slice data 0 35 ++ slice data 35 (96 * (le16 data 26).toNat) := congrArg _ htracks
    _ = slice data 0 (35 + 96 * (le16 data 26).toNat) := slice_append

/-! ## The codec -/

/-- **The track frame codec.** What is written reads back. A buffer is accepted exactly when it
holds the fields and the tracks they count, and is otherwise refused without a read behind its end;
what was accepted is written back as it was read. -/
theorem trackFrame_codec :
    (∀ frame : TrackFrame, frame.tracks.length = frame.trackCount.toNat →
      ((deserialize (serialize frame)).exec {}).1 = .ok frame) ∧
    ∀ data : List Byte,
      ((∃ frame, ((deserialize data).exec {}).1 = .ok frame) ↔
        35 ≤ data.length ∧ 35 + 96 * (le16 data 26).toNat ≤ data.length) ∧
      ((¬ ∃ frame, ((deserialize data).exec {}).1 = .ok frame) →
        ((deserialize data).exec {}).1 = .error "buffer underflow") ∧
      ((deserialize data).exec {}).2.Inside data ∧
      ∀ frame, ((deserialize data).exec {}).1 = .ok frame →
        data[32]? = some 0 ∨ data[32]? = some 1 →
        serialize frame = data.take (35 + 96 * (le16 data 26).toNat) := by
  refine ⟨?_, ?_⟩
  · intro frame hcount
    have hback := decoded_serialize hcount
    have hle : le16 (serialize frame) 26 = frame.trackCount := congrArg TrackFrame.trackCount hback
    have hlen : 35 + 96 * (le16 (serialize frame) 26).toNat ≤ (serialize frame).length := by
      rw [hle, length_serialize]
    have hok := deserialize_ok hlen
    rwa [hback] at hok
  · intro data
    by_cases h : 35 + 96 * (le16 data 26).toNat ≤ data.length
    · have hok := deserialize_ok h
      refine ⟨iff_of_true ⟨_, hok⟩ ⟨by omega, h⟩, ?_, deserialize_inside, ?_⟩
      · intro hno
        exact absurd ⟨_, hok⟩ hno
      intro frame hframe hflag
      have hslice : slice data 32 1 = [0] ∨ slice data 32 1 = [1] := by
        have hbyte : slice data 32 1 = data[32]?.toList := by
          rw [slice, List.take_one, List.head?_drop]
        rcases hflag with h0 | h1
        · left
          rw [hbyte, h0]
          rfl
        · right
          rw [hbyte, h1]
          rfl
      obtain rfl := Except.ok.inj (hok.symm.trans hframe)
      exact serialize_decoded h hslice
    · have hshort := deserialize_short (Nat.lt_of_not_le h)
      have hno : ¬ ∃ frame, ((deserialize data).exec {}).1 = .ok frame := by
        rintro ⟨frame, hframe⟩
        rw [hshort] at hframe
        cases hframe
      refine ⟨iff_of_false hno fun hle => h hle.2, fun _ => hshort, deserialize_inside, ?_⟩
      intro frame hframe
      exact absurd ⟨frame, hframe⟩ hno

def sampleTrack : Track where
  trackId := 9
  posX := 0x3FF0000000000000
  posY := 0
  posZ := 0
  velX := 0
  velY := 0
  velZ := 0
  headingDeg := 0
  confidence := 0x3F000000
  lifecycleState := 1
  sourceArrayId := 1
  handoverFlag := 1
  handoverFrom := 2
  coastFrames := 0
  padding := 0
  createTs := 10
  updateTs := 20

def sampleFrame : TrackFrame where
  frameSeq := 7
  dataTimestampNs := 20
  backendInstanceId := 1
  clockDomain := 0
  coverageMask := 7
  trackCount := 2
  systemQualityFlags := 0
  isTruncated := true
  droppedCount := 3
  tracks := [sampleTrack, { sampleTrack with trackId := 10 }]
  counted := by decide

theorem sampleFrame_codec :
    ((deserialize (serialize sampleFrame)).exec {}).1 = .ok sampleFrame ∧
      serialize sampleFrame = (serialize sampleFrame).take (35 + 96 * 2) :=
  ⟨trackFrame_codec.1 sampleFrame rfl,
    (trackFrame_codec.2 (serialize sampleFrame)).2.2.2 sampleFrame
      (trackFrame_codec.1 sampleFrame rfl) (.inr rfl)⟩

end Qdgz300.Gateway
