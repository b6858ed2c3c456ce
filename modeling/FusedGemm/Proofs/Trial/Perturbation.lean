import FusedGemm.Proofs.Check.Locating
import FusedGemm.Proofs.Trial.Agreement
import FusedGemm.Proofs.Trial.Coverage

/-!
# Wrong elements of the product

An emulated kernel can be made to add numbers to elements of `D` before it writes them.  Each sum is
rounded, so that a number may be absorbed or undone by a later one; what remains are the storage
indices whose code is another one in the end (`Tensor.offsetIndices`).  The report locates just these
and finds nothing in the other outputs (`Round.offsets_located`).
-/

namespace FusedGemm

/-! ### Offsets -/

/-- A code after the numbers for its storage index have been added, one after the other, each sum
rounded to the type. -/
def ElementType.offsetCode (type : ElementType) (offsets : List (Nat × Float)) (i : Nat)
    (code : Code type) : Code type :=
  offsets.foldl (fun code offset =>
    if offset.1 = i then type.encode (type.decode code + .ofReal offset.2) else code) code

namespace Tensor

variable {t u : Tensor} {offsets : List (Nat × Float)}

/-- The storage indices at which the code is another one with the offsets. -/
def offsetIndices (t : Tensor) (offsets : List (Nat × Float)) : List Nat :=
  (List.range t.codes.size).filter fun i =>
    t.type.offsetCode offsets i (t.codes.getD i 0) ≠ t.codes.getD i 0

/-- Faults of `D` change the code at each storage index by the numbers for it. -/
theorem exists_codes_perturb (t : Tensor) (offsets : List (Nat × Float)) :
    ∃ codes : Array (Code t.type),
      (offsets.map fun o => KernelFault.offsetD o.1 o.2).foldl KernelFault.perturb t =
        t.withCodes codes ∧ codes.size = t.codes.size ∧
      ∀ i < t.codes.size, codes.getD i 0 = t.type.offsetCode offsets i (t.codes.getD i 0) := by
  induction offsets generalizing t with
  | nil => exact ⟨t.codes, rfl, rfl, fun i _ => rfl⟩
  | cons offset offsets ih =>
    obtain ⟨index, delta⟩ := offset
    obtain ⟨codes, hfold, hsize, hcodes⟩ := ih (t.put index (t.get index + .ofReal delta))
    rw [size_put] at hsize hcodes
    refine ⟨codes, hfold, hsize, fun i hi => (hcodes i hi).trans ?_⟩
    have hstep : (t.put index (t.get index + .ofReal delta)).codes.getD i 0 =
        if index = i then t.type.encode (t.type.decode (t.codes.getD i 0) + .ofReal delta)
        else t.codes.getD i 0 := by
      by_cases hindex : index = i
      · subst hindex
        simp [put, get, hi]
      · simp [put, hindex, Array.getD_eq_getD_getElem?, Array.getElem?_setIfInBounds_ne hindex]
    exact congrArg (t.type.offsetCode offsets i) hstep

/-- A tensor with the bytes that faults of `D` leave differs where the offsets change a code. -/
theorem differingIndices_of_perturb (h : t.Alike u)
    (hbytes : u.bytes = ((offsets.map fun o => KernelFault.offsetD o.1 o.2).foldl
      KernelFault.perturb t).bytes) : t.differingIndices u = t.offsetIndices offsets := by
  obtain ⟨codes, hfold, hsize, hcodes⟩ := t.exists_codes_perturb offsets
  obtain ⟨found, name, hsize', rfl⟩ := h.exists_codes
  rw [hfold] at hbytes
  obtain rfl : found = codes :=
    codes_eq_of_bytes_eq (t := t.withCodes codes) (hsize'.trans hsize.symm) hbytes
  refine List.filter_congr fun i hi => ?_
  rw [List.mem_range] at hi
  show (!(t.type == t.type && (t.codes.getD i 0).toNat == (found.getD i 0).toNat)) = _
  rw [hcodes i hi, beq_self_eq_true, Bool.true_and, Bool.eq_iff_iff, Bool.not_eq_true',
    beq_eq_false_iff_ne, decide_eq_true_iff, ne_comm]
  exact not_congr BitVec.toNat_inj

end Tensor

/-! ### Reports -/

/-- `D` has the configured layout. -/
theorem Materialized.packed_product {config : Config} {p : Problem} {x y : Float}
    {device placed : Device} {case : Case} (h : Materialized config p x y device case placed) :
    config.orderD.packed? p.outputExtent = some case.operands.outputs.d.host.layout := by
  obtain ⟨placement, hok, hhost, -⟩ := h.meets.outputs.d
  obtain ⟨t, ht, rfl⟩ := exists_of_placement_eq_ok hok
  obtain ⟨layout, hlayout, rfl⟩ := Tensor.packed_eq_ok ht
  rw [hhost]
  exact hlayout

namespace Round

variable {config : Config} {r : Round} {kernel : EmulatedKernel} {device launched : Device}
  {case pulled : Case} {channel : Channel} {staged : Staged}

/-- The entry of an output compares the reference with what the kernel has made of it. -/
theorem entry?_of_launched (hd : device.Sound) (hk : kernel.OnlyOffsets)
    (hl : Launched emulation config r kernel device case launched)
    (hpull : case.pullOutputs launched.synchronize.2 = (none, pulled))
    (hs : case.operands.outputs.get? channel = some staged) :
    ∃ expected actual : Tensor,
      (case.fusedProduct.apply case.reference).get? channel = some expected ∧
      pulled.withReference.entry? channel =
        some ⟨channel, case.comparison.mismatches expected actual⟩ ∧
      staged.host.Alike expected ∧ expected.Compact ∧ expected.Alike actual ∧
      actual.bytes = (kernel.written channel expected).bytes := by
  obtain ⟨hsound, placed, hm⟩ := hl.materialized emulation_keepsShape hd
  have hsync : launched.synchronize.2.Sound :=
    hsound.of_sameShape (Device.sameShape_synchronize launched)
  obtain ⟨expected, actual, happly, hentry, hcompact, halike, hbytes⟩ :=
    entry?_of_pullOutputs hm hsync hpull hs
  obtain ⟨expected', happly', hstart, hcontents⟩ := hl.contents_emulation hd hk channel staged hs
  obtain rfl : expected = expected' := Option.some.inj (happly.symm.trans happly')
  have hwritten := hstart.trans (kernel.alike_written channel expected)
  exact ⟨expected, actual, happly, hentry, hstart, hcompact, halike,
    hbytes.trans (contents_of_output hm hsync hs hwritten hcontents)⟩

end Round

/-- **Wrong elements are located exactly.**  Let the only faults of an emulated kernel be numbers that
are added to elements of `D`, at any storage indices.  If a round with the exact comparison comes to
a report, the outputs other than `D` have no mismatches.  The one entry of `D` counts the storage
indices at which the code of the reference is another one with these numbers, and its first
coordinate is that of the least such element in batch, row, column order. -/
theorem Round.offsets_located {config : Config} {r : Round} {kernel : EmulatedKernel}
    {device : Device} {outcome : Outcome} {report : Report} (offsets : List (Nat × Float))
    (hd : device.Sound) (hexact : config.equality = .exact)
    (hfaults : kernel.faults = offsets.map fun o => .offsetD o.1 o.2)
    (hown : kernel.ownDevice = none)
    (hrun : (run emulation config r kernel device).1 = .ok outcome)
    (hreport : outcome.report? = some report) :
    ∃ case launched found, Launched emulation config r kernel device case launched ∧
      case.withReference.reference.d.type = config.typeD ∧
      config.orderD.packed? r.problem.outputExtent =
        some case.withReference.reference.d.layout ∧
      (∀ other ∈ report.channels, other.channel ≠ .d → other.mismatches.count = 0) ∧
      report.channels.filter (fun o => o.channel == .d) = [found] ∧
      found.mismatches.Locates case.withReference.reference.d
        (case.withReference.reference.d.offsetIndices offsets) := by
  have hk : kernel.OnlyOffsets := by
    refine ⟨fun fault hmem => ?_, hown⟩
    rw [hfaults] at hmem
    obtain ⟨offset, -, rfl⟩ := List.mem_map.mp hmem
    exact ⟨offset.1, offset.2, rfl⟩
  obtain ⟨case, launched, hl⟩ := exists_launched_of_report hrun hreport
  obtain ⟨-, placed, hm⟩ := hl.materialized emulation_keepsShape hd
  rw [run_of_launched hl] at hrun
  obtain ⟨pulled, hpull, rfl⟩ := exists_pulled_of_report hrun hreport
  rw [Case.report?_outcome, Option.some.injEq] at hreport
  subst hreport
  have hentry := fun {channel : Channel} {staged : Staged}
      (hs : case.operands.outputs.get? channel = some staged) =>
    entry?_of_launched hd hk hl hpull hs
  have hproduct : case.operands.outputs.get? .d = some case.operands.outputs.d := rfl
  obtain ⟨expected, actual, happly, hfound, hstart, hcompact, halike, hbytes⟩ := hentry hproduct
  obtain rfl : case.withReference.reference.d = expected := Option.some.inj happly
  refine ⟨case, launched, ⟨.d, case.comparison.mismatches case.withReference.reference.d actual⟩,
    hl, ?_, ?_, ?_, ?_, ?_⟩
  · exact hstart.type_eq.trans hm.product.type_eq
  · rw [hstart.layout_eq]
    exact hm.packed_product
  · intro other hother hne
    obtain ⟨staged, hs, hother⟩ := exists_output_of_found hpull hother
    obtain ⟨expected', actual', -, hfound', -, -, halike', hbytes'⟩ := hentry hs
    rw [hfound', Option.some.injEq] at hother
    rw [← hother]
    refine Comparison.mismatches_eq_zero halike' ?_
    rw [hbytes', kernel.written_of_ne hne]
  · rw [Case.filter_channels_compare, hfound]
    rfl
  · have hseparates : case.withReference.reference.d.layout.Separates := by
      rw [hstart.layout_eq]
      exact (hm.output_shape hproduct).2
    have hlocates := Comparison.exact_mismatches_locates hcompact hseparates halike
    rw [EmulatedKernel.written, hfaults] at hbytes
    rw [Tensor.differingIndices_of_perturb halike hbytes] at hlocates
    rw [hm.comparison_eq_exact hexact]
    exact hlocates

/-- A product of one number by two. -/
def Round.pair : Round := ⟨⟨1, 2, 1, 1, Nat.one_pos⟩, 1, 0⟩

/-- Numbers for the first element that undo each other, one for the second element, and one for an
element that is not there. -/
def Round.offsets : List (Nat × Float) := [(0, 1), (9, 1), (0, -1), (1, 1)]

/-- Of two elements only the second is wrong in the end. -/
theorem Round.offsets_located_pair : ({} : Device).Sound ∧ tracked.equality = .exact ∧
    ∃ kernel outcome report case launched,
      kernel = { faults := offsets.map fun o => .offsetD o.1 o.2 } ∧
      (run emulation tracked pair kernel {}).1 = .ok outcome ∧
      outcome.report? = some report ∧
      Launched emulation tracked pair kernel {} case launched ∧
      (⟨1, some ⟨0, 1, 0⟩⟩ : Mismatches).Locates case.withReference.reference.d
        (case.withReference.reference.d.offsetIndices offsets) := by
  have hd : ({} : Device).Sound := Device.sound_empty none
  have hexact : tracked.equality = .exact := rfl
  have heval : ((run emulation tracked pair
      { faults := offsets.map fun o => .offsetD o.1 o.2 } {}).1.toOption.bind Outcome.report?).map
      (fun report => report.channels.filter fun o => o.channel == .d) =
      some [⟨.d, 1, some ⟨0, 1, 0⟩⟩] := by decide +kernel
  cases hrun : (run emulation tracked pair
      { faults := offsets.map fun o => .offsetD o.1 o.2 } {}).1 with
  | error e =>
    rw [hrun] at heval
    cases heval
  | ok outcome =>
    rw [hrun] at heval
    obtain ⟨report, hreport, hfound⟩ := Option.map_eq_some_iff.mp heval
    obtain ⟨case, launched, found, hl, -, -, -, hfilter, hlocates⟩ :=
      offsets_located offsets hd hexact rfl rfl hrun hreport
    obtain rfl : found = ⟨.d, 1, some ⟨0, 1, 0⟩⟩ :=
      (List.singleton_inj.mp (hfound.symm.trans hfilter)).symm
    exact ⟨hd, hexact, _, outcome, report, case, launched, rfl, hrun, hreport, hl, hlocates⟩

end FusedGemm
