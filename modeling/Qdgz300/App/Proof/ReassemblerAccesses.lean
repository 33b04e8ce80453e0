import Qdgz300.App.FacePipeline
import Qdgz300.Pipeline.Proof.AccessOverrun

/-!
# The accesses of a configured reassembler

`validate` keeps `max_total_frags` within the bitmap of a context, and so every access to a
container and to a packet in range. It leaves `sample_count_fixed` as it is, and with it the sizes
of the missing fragments: `NoOverrun` is what the buffers of frames need besides.
**`reassembler_accesses`** has both.
-/

namespace Qdgz300.App

open Protocol Pipeline Accesses

theorem validate_maxTotalFrags {config : Config.ReceiverConfig}
    (hvalid : Config.validate config = true) :
    config.reassembly.maxTotalFrags.toNat ≤ 1024 := by
  by_contra hlarge
  rw [Nat.not_le] at hlarge
  have : Config.validate config = false := by simp [Config.validate, hlarge]
  rw [this] at hvalid
  cases hvalid

/-- **The accesses of the reassembler.** For every configuration that `validate` accepts: in every
run on packets that hold the bytes they announce, the accesses to the containers and to the
packets are in range; and all accesses of all runs are, those to the buffers of frames too,
exactly if the size of no frame that misses its inner fragments wraps, or the allocator refuses
the wrapped size. -/
theorem reassembler_accesses (config : Config.ReceiverConfig)
    (hvalid : Config.validate config = true) (fits : Allocator) :
    (∀ (clk : SystemClock) (ops : List ReassemblerOp), (∀ op ∈ ops, Held op) →
      ∀ a ∈ (Accesses.run fits clk (System.new (reassemblerConfig config)) ops).2,
        a.onFrame = false → a.InRange) ∧
    ((∀ (clk : SystemClock) (ops : List ReassemblerOp), (∀ op ∈ ops, Held op) →
        ∀ a ∈ (Accesses.run fits clk (System.new (reassemblerConfig config)) ops).2, a.InRange) ↔
      NoOverrun fits (reassemblerConfig config)) := by
  have hmax : (reassemblerConfig config).maxTotalFrags.toNat ≤ 1024 := validate_maxTotalFrags hvalid
  refine ⟨fun clk ops hheld a ha hframe => ?_, inRange_iff fits hmax⟩
  exact run_inRange clk hmax (fun hno : False => hno.elim) hheld a ha (.inl hframe)

/-- The default configuration keeps all accesses in range. -/
theorem default_accesses :
    Config.validate {} = true ∧
    ∀ (fits : Allocator) (clk : SystemClock) (ops : List ReassemblerOp), (∀ op ∈ ops, Held op) →
      ∀ a ∈ (Accesses.run fits clk (System.new (reassemblerConfig {})) ops).2, a.InRange :=
  ⟨by decide, fun fits =>
    (reassembler_accesses {} (by decide) fits).2.2 (noOverrun_of_le fits (by decide))⟩

/-- A configuration of `2 ^ 60` samples. -/
def hugeSamples : Config.ReceiverConfig := { reassembly := { sampleCountFixed := 2 ^ 60 } }

/-- It is valid. A flush after the first of three fragments, with one channel of eight-byte samples
and no payload, asks for eight bytes and clears `2 ^ 63` at their start. -/
theorem hugeSamples_overrun :
    Config.validate hugeSamples = true ∧
    (∀ op ∈ emptyFrame (reservedHealth 8 1) 3 8, Held op) ∧
    .writeFrame 0 (2 ^ 63) 8 ∈ (Accesses.run (fun n => decide (n ≤ 4096)) (fun _ => 0)
      (System.new (reassemblerConfig hugeSamples)) (emptyFrame (reservedHealth 8 1) 3 8)).2 ∧
    ¬ (Access.writeFrame 0 (2 ^ 63) 8).InRange :=
  ⟨by decide +kernel, emptyFrame_held, by decide +kernel, by decide⟩

end Qdgz300.App
