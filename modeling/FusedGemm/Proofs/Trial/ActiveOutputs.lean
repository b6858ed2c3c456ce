import FusedGemm.Proofs.Trial.Coverage
import FusedGemm.Proofs.Trial.EmptyScalars
import FusedGemm.Proofs.Trial.Verdict

/-!
# Active outputs

The outputs that are active follow from the features (`Capabilities.channels`).  The same ones are
passed to a kernel, computed by the reference, copied back and compared, each on its own
(`Case.active_outputs`): what a channel reports depends on the reference and the host copy of that
output alone (`Case.filter_channels_congr`).
-/

namespace FusedGemm

/-! ### Lists of channels -/

/-- The outputs that are active by the features, in order. -/
def Capabilities.channels (c : Capabilities) : List Channel := Channel.all.filter c.writes

/-- The outputs that are there, in order. -/
def Outputs.channels {α : Type} (o : Outputs α) : List Channel :=
  Channel.all.filter fun channel => (o.get? channel).isSome

theorem Channel.mem_all (channel : Channel) : channel ∈ all := by
  cases channel <;> decide

/-- The same outputs are there as are active. -/
theorem Outputs.channels_eq_iff {α : Type} {o : Outputs α} {c : Capabilities} :
    o.channels = c.channels ↔ ∀ channel, (o.get? channel).isSome = c.writes channel := by
  constructor
  · intro h channel
    have hmem : channel ∈ o.channels ↔ channel ∈ c.channels := by rw [h]
    simp only [channels, Capabilities.channels, List.mem_filter, channel.mem_all,
      true_and] at hmem
    exact Bool.eq_iff_iff.mpr hmem
  · intro h
    exact List.filter_congr fun channel _ => h channel

namespace Config

variable {config : Config}

/-- **An output is planned if and only if it is active.** -/
theorem isSome_outputPlan (hv : config.Valid) (p : Problem) (channel : Channel) :
    ((config.outputPlan p).get? channel).isSome = config.capabilities.writes channel := by
  cases hw : config.capabilities.writes channel with
  | true =>
    obtain ⟨entry, hentry⟩ := exists_entry_of_writes hv p hw
    rw [hentry]
    rfl
  | false =>
    cases channel with
    | d => cases hw
    | absMaxD =>
      have hoff : config.capabilities.absMaxD = false := hw
      simp [outputPlan, Outputs.get?, hoff]
    | biasGradient =>
      have hoff : config.capabilities.biasGradient = false := hw
      simp [outputPlan, Outputs.get?, hoff]
    | aux =>
      have hoff : config.capabilities.auxOut = false := hw
      simp [outputPlan, Outputs.get?, hoff]
    | absMaxAux =>
      have hoff : config.capabilities.absMaxAux = false := hw
      simp [outputPlan, Outputs.get?, hoff]

end Config

/-! ### The outputs of a case -/

namespace Materialized

variable {config : Config} {p : Problem} {x y : Float} {device placed later : Device} {case : Case}

theorem isSome_output (h : Materialized config p x y device case placed) (channel : Channel) :
    (case.operands.outputs.get? channel).isSome = config.capabilities.writes channel := by
  rw [isSome_of_rel (h.meets.outputs.get? channel)]
  exact Config.isSome_outputPlan h.valid p channel

theorem isSome_reference (h : Materialized config p x y device case placed) (channel : Channel) :
    (case.reference.get? channel).isSome = config.capabilities.writes channel := by
  rw [← h.isSome_output channel]
  cases hs : case.operands.outputs.get? channel with
  | some staged =>
    obtain ⟨t, ht, -⟩ := h.alike_reference hs
    rw [ht]
    rfl
  | none =>
    cases ht : case.reference.get? channel with
    | none => rfl
    | some t =>
      obtain ⟨staged, hs', -⟩ := h.exists_output_of_reference ht
      rw [hs] at hs'
      cases hs'

end Materialized

/-! ### Copying back -/

/-- The allocations of the case are there, with whatever contents. -/
def Case.Live (case : Case) (device : Device) : Prop :=
  ∀ staged ∈ case.operands.toList, staged.pointer ≠ .null →
    ∃ bytes, device.contents? staged.pointer = some bytes ∧ bytes.length = staged.host.byteSize

/-- The host copy is replaced by the bytes on the device, and nothing else changes. -/
structure Staged.PulledFrom (device : Device) (staged pulled : Staged) : Prop where
  buffer_eq : pulled.buffer = staged.buffer
  name_eq : pulled.host.name = staged.host.name
  alike : staged.host.Alike pulled.host
  bytes_eq : pulled.host.bytes = (device.contents? staged.pointer).getD []

theorem Device.SameShape.exists_contents? {device device' : Device} (h : device.SameShape device')
    (hd : device.Sound) {p : Pointer} {bytes : List UInt8} (hc : device.contents? p = some bytes) :
    ∃ bytes', device'.contents? p = some bytes' ∧ bytes'.length = bytes.length := by
  have hmem : (p, bytes.length) ∈ device'.shapes := by
    rw [h.shapes_eq]
    exact List.mem_map_of_mem ((Device.contents?_eq_some_iff hd).mp hc)
  obtain ⟨a, ha, hshape⟩ := List.mem_map.mp hmem
  obtain ⟨rfl, hlength⟩ := Prod.mk.inj hshape
  exact ⟨a.bytes, (Device.contents?_eq_some_iff (hd.of_sameShape h)).mpr ha, hlength⟩

namespace Materialized

variable {config : Config} {p : Problem} {x y : Float} {device placed later : Device} {case : Case}

/-- A device on which only contents have changed has the allocations of the case. -/
theorem live (h : Materialized config p x y device case placed) (hs : placed.SameShape later) :
    case.Live later := by
  intro staged hmem hne
  obtain ⟨bytes, hbytes, hlength⟩ :=
    hs.exists_contents? h.holds.sound (h.holds.contents? hmem hne)
  exact ⟨bytes, hbytes, hlength.trans (Tensor.length_bytes _)⟩

theorem pulledFrom (h : Materialized config p x y device case placed) (hl : later.Sound)
    {channel : Channel} {staged pulled : Staged}
    (hs : case.operands.outputs.get? channel = some staged) (hpull : staged.pull later = .ok pulled) :
    staged.PulledFrom later pulled := by
  obtain ⟨-, hbuffer, hfits⟩ := h.output hs
  obtain ⟨hhost, hlength⟩ := Staged.pull_eq_ok hpull hl hbuffer hfits
  refine ⟨?_, ?_, ?_, ?_⟩
  · obtain ⟨host, _ | buffer⟩ := staged
    · cases hbuffer
    · obtain ⟨bytes, -, hpulled⟩ := exists_of_bind_eq_ok hpull
      cases hpulled
      rfl
  · rw [hhost]
    rfl
  · rw [hhost]
    exact Tensor.alike_withBytes _ _
  · rw [hhost]
    exact Tensor.bytes_withBytes _ hlength

/-- Every output is copied back, whatever the kernel has left in it. -/
theorem exists_pulledFrom (h : Materialized config p x y device case placed) (hl : later.Sound)
    (hlive : case.Live later) : ∃ pulled, case.pullOutputs later = (none, pulled) ∧
      pulled = { case with operands := { case.operands with outputs := pulled.operands.outputs } } ∧
      ∀ channel, Option.Rel (Staged.PulledFrom later) (case.operands.outputs.get? channel)
        (pulled.operands.outputs.get? channel) := by
  obtain ⟨pulled, hpull⟩ : ∃ pulled, case.pullOutputs later = (none, pulled) := by
    refine Case.exists_pullOutputs fun channel staged hs => ?_
    exact Staged.exists_pull (h.output hs).2.2 (hlive staged (Operands.mem_toList_of_output hs))
  obtain ⟨hpulled, hrel⟩ := Case.pullOutputs_eq_ok hpull
  refine ⟨pulled, hpull, hpulled, fun channel => ?_⟩
  have hchannel := hrel channel
  cases hs : case.operands.outputs.get? channel with
  | none =>
    rw [hs] at hchannel
    rw [eq_none_of_rel hchannel]
    exact .none
  | some staged =>
    rw [hs] at hchannel
    obtain ⟨staged', hs', hpull'⟩ := exists_of_rel_some hchannel
    rw [hs']
    exact .some (h.pulledFrom hl hs hpull')

end Materialized

/-! ### Comparing -/

namespace Case

/-- The channels of a report are those with a reference and a host copy. -/
theorem map_channel_compare (case : Case) :
    case.compare.channels.map ChannelOutcome.channel = Channel.all.filter fun channel =>
      (case.reference.get? channel).isSome && (case.outputs.get? channel).isSome := by
  have hentry : ∀ channel, (case.entry? channel).map ChannelOutcome.channel =
      Option.guard (fun channel => (case.reference.get? channel).isSome &&
        (case.outputs.get? channel).isSome) channel := by
    intro channel
    unfold entry?
    cases hreference : case.reference.get? channel with
    | none => simp [Option.guard, hreference]
    | some expected =>
      cases hactual : case.outputs.get? channel with
      | none => simp [Option.guard, hactual]
      | some actual => simp [Option.guard, hreference, hactual]
  rw [channels_compare, List.map_filterMap, funext hentry, List.filterMap_eq_filter]

/-- An entry of a report compares the two tensors of its channel. -/
theorem exists_tensors_of_mem {case : Case} {found : ChannelOutcome}
    (h : found ∈ case.compare.channels) : ∃ expected actual,
      case.reference.get? found.channel = some expected ∧
      case.outputs.get? found.channel = some actual ∧
      found.mismatches = case.comparison.mismatches expected actual := by
  rw [channels_compare] at h
  obtain ⟨channel, -, hentry⟩ := List.mem_filterMap.mp h
  unfold entry? at hentry
  split at hentry
  · next expected actual hreference hactual =>
    cases hentry
    exact ⟨expected, actual, hreference, hactual, rfl⟩
  · cases hentry

/-- **What a channel reports depends on its own two tensors alone.** -/
theorem filter_channels_congr {case case' : Case} {channel : Channel}
    (hcomparison : case.comparison = case'.comparison)
    (hreference : case.reference.get? channel = case'.reference.get? channel)
    (houtput : case.outputs.get? channel = case'.outputs.get? channel) :
    case.compare.channels.filter (fun found => found.channel == channel) =
      case'.compare.channels.filter fun found => found.channel == channel := by
  rw [filter_channels_compare, filter_channels_compare]
  unfold entry?
  rw [hreference, houtput, hcomparison]

end Case

/-- **Every output that a kernel is told of is copied back and compared, and nothing else.**  The
outputs among the arguments, in the reference and on the host are those that are active.  Whatever
the device memory of a case holds later, its outputs can be copied back, which gives each host copy
the bytes on the device and leaves all else as it was.  With the reference at whatever values, a
report has one entry for each active output, with the mismatches of its own two tensors; so
another case that agrees on one output reports the same for it. -/
theorem Case.active_outputs {config : Config} {p : Problem} {x y : Float}
    {device placed later : Device} {case : Case} (hd : device.Sound) (hm : 0 < p.m)
    (hset : Case.setUp config p x y device = (.ok case, placed)) (hl : later.Sound)
    (hlive : case.Live later) :
    (∃ launch, case.arguments = .ok launch ∧
      launch.outputs.channels = config.capabilities.channels) ∧
    case.reference.channels = config.capabilities.channels ∧
    case.withReference.reference.channels = config.capabilities.channels ∧
    ∃ pulled, case.pullOutputs later = (none, pulled) ∧
      pulled = { case with operands := { case.operands with outputs := pulled.operands.outputs } } ∧
      pulled.outputs.channels = config.capabilities.channels ∧
      (∀ channel, Option.Rel (Staged.PulledFrom later) (case.operands.outputs.get? channel)
        (pulled.operands.outputs.get? channel)) ∧
      ∀ compared : Case, compared.comparison = pulled.comparison →
        compared.operands = pulled.operands →
        compared.reference.channels = config.capabilities.channels →
        compared.compare.channels.map ChannelOutcome.channel = config.capabilities.channels ∧
        (∀ found ∈ compared.compare.channels, ∃ expected actual,
          compared.reference.get? found.channel = some expected ∧
          compared.outputs.get? found.channel = some actual ∧
          found.mismatches = case.comparison.mismatches expected actual) ∧
        ∀ (other : Case) (channel : Channel), other.comparison = compared.comparison →
          other.reference.get? channel = compared.reference.get? channel →
          other.outputs.get? channel = compared.outputs.get? channel →
          other.compare.channels.filter (fun found => found.channel == channel) =
            compared.compare.channels.filter fun found => found.channel == channel := by
  have h := materialized_of_setUp hd hset
  obtain ⟨launch, harg⟩ := h.exists_arguments fun hrows => hm.ne' hrows.2
  obtain ⟨pulled, hpull, hpulled, hrel⟩ := h.exists_pulledFrom hl hlive
  have hhost : ∀ channel, (pulled.outputs.get? channel).isSome =
      config.capabilities.writes channel := by
    intro channel
    rw [Case.outputs, Outputs.get?_map, Option.isSome_map, isSome_of_rel (hrel channel)]
    exact h.isSome_output channel
  have hcomputed : ∀ channel, (case.withReference.reference.get? channel).isSome =
      config.capabilities.writes channel := by
    intro channel
    show ((case.fusedProduct.apply case.reference).get? channel).isSome = _
    rw [isSome_of_rel (case.fusedProduct.alike_apply case.reference channel)]
    exact h.isSome_reference channel
  refine ⟨⟨launch, harg, Outputs.channels_eq_iff.mpr fun channel => ?_⟩,
    Outputs.channels_eq_iff.mpr h.isSome_reference, Outputs.channels_eq_iff.mpr hcomputed,
    pulled, hpull, hpulled, Outputs.channels_eq_iff.mpr hhost, hrel, ?_⟩
  · rw [Case.outputs_of_arguments harg, Outputs.get?_map, Option.isSome_map]
    exact h.isSome_output channel
  · intro compared hcomparison hoperands hreference
    have hoperands' : compared.outputs = pulled.outputs := by
      rw [Case.outputs, hoperands, Case.outputs]
    have hcase : pulled.comparison = case.comparison := by rw [hpulled]
    refine ⟨?_, ?_, fun other channel => Case.filter_channels_congr⟩
    · rw [Case.map_channel_compare, hoperands']
      refine List.filter_congr fun channel _ => ?_
      rw [Outputs.channels_eq_iff.mp hreference, hhost, Bool.and_self]
    · rw [← hcase, ← hcomparison]
      exact fun found hfound => Case.exists_tensors_of_mem hfound

/-- Three outputs are active in `Round.tracked`; they are compared after all of device memory has
been wiped, too. -/
theorem Case.active_outputs_wiped : ({} : Device).Sound ∧ 0 < Round.twoBatches.problem.m ∧
    ∃ case placed later pulled,
      Case.setUp Round.tracked Round.twoBatches.problem 1 0 {} = (.ok case, placed) ∧
      (Kernel.wiping.run () placed).2.2 = later ∧ later.Sound ∧ case.Live later ∧
      case.pullOutputs later = (none, pulled) ∧
      pulled.withReference.compare.channels.map ChannelOutcome.channel =
        [.d, .absMaxD, .aux] := by
  have hd : ({} : Device).Sound := Device.sound_empty none
  have hm : 0 < Round.twoBatches.problem.m := by decide
  obtain ⟨case, placed, hset⟩ : ∃ case placed,
      Case.setUp Round.tracked Round.twoBatches.problem 1 0 {} = (.ok case, placed) := ⟨_, _, rfl⟩
  have h := materialized_of_setUp hd hset
  have hshape := Kernel.wiping_keepsShape.run () placed h.holds.sound
  have hl := h.holds.sound.of_sameShape hshape
  have hlive := h.live hshape
  obtain ⟨-, -, hcomputed, pulled, hpull, hpulled, -, -, hcompare⟩ :=
    Case.active_outputs hd hm hset hl hlive
  have hreference : pulled.withReference.reference = case.withReference.reference := by
    rw [hpulled]
    rfl
  obtain ⟨hchannels, -, -⟩ := hcompare pulled.withReference rfl rfl (hreference ▸ hcomputed)
  exact ⟨hd, hm, case, placed, _, pulled, hset, rfl, hl, hlive, hpull, hchannels⟩

end FusedGemm
