import FusedGemm.Proofs.Trial.ActiveOutputs

/-!
# Slots

No valid configuration both reads a bias and writes the gradient of one, or both reads and writes an
auxiliary tensor.  So an epilogue can be stored with one *slot* for the bias or its gradient and one
for the auxiliary tensor, whether it is read or written.  Five places then have to decide what a slot
stands for: the plan fills it by the first feature that asks for it, the arguments of a kernel and of
the reference take it as an input or an output by the features, copying back asks for the features or
for what is there, and comparing asks for what is there and looks at the maximum of the auxiliary
tensor only where that tensor itself is compared.

`Slots` is an epilogue that is stored in this way, with the five decisions.  They agree with those
that a case makes from its record of outputs (`Config.slots_plan`, `Case.slots_agree`).
-/

namespace FusedGemm

/-! ### Shared places -/

section Shared
variable {α : Type}

theorem filter_const (x : Option α) (b : Bool) :
    x.filter (fun _ => b) = if b then x else none := by
  cases x <;> cases b <;> rfl

variable {read written : Option α} {r w : Bool}

theorem map_or_of_none {β : Type} (h : read = none) (f : α → β) :
    (read.or written).map f = written.map f := by
  rw [h]
  rfl

theorem eq_none_of_exclusive (hread : read.isSome = r) (hexclusive : (r && w) = false)
    (hw : w = true) : read = none := by
  rwa [hw, Bool.and_true, ← hread, Option.isSome_eq_false_iff, Option.isNone_iff_eq_none]
    at hexclusive

variable (hread : read.isSome = r) (hwritten : written.isSome = w)
  (hexclusive : (r && w) = false)
include hread hwritten hexclusive

/-- Of two things that are not there together each is found again in the place that they share. -/
theorem filter_or_eq :
    (read.or written).filter (fun _ => r) = read ∧
      (read.or written).filter (fun _ => w) = written := by
  subst hread hwritten
  cases read <;> cases written <;> simp_all

/-- What is written to the shared place leaves what is read there. -/
theorem or_filter_eq {shared : Option α} (hsome : shared.isSome = (read.or written).isSome)
    (hkept : w = false → shared = read.or written) :
    read.or (shared.filter fun _ => w) = shared := by
  subst hread hwritten
  cases read <;> cases written <;> simp_all [filter_const]

end Shared

/-- One place for each tensor of the epilogue that may be there together with all others. -/
structure Slots (α : Type) where
  d : α
  /-- A bias that is read, or the gradient of one that is written. -/
  bias : Option α
  /-- An auxiliary tensor that is read, or one that is written. -/
  aux : Option α
  absMaxD : Option α
  absMaxAux : Option α

/-- The operands of the epilogue in their slots. -/
def Operands.slots {α : Type} (o : Operands α) : Slots α where
  d := o.outputs.d
  bias := o.bias.or o.outputs.biasGradient
  aux := o.auxIn.or o.outputs.aux
  absMaxD := o.outputs.absMaxD
  absMaxAux := o.outputs.absMaxAux

/-! ### Filling -/

namespace Config

variable (config : Config) (p : Problem)

/-- The entries of the slots.  A bias that is read comes before a gradient that is written, and so
with the auxiliary tensor. -/
def slotPlan : Slots Entry where
  d _ := Placement.mk <$> config.product p <*> pure true
  bias :=
    if config.capabilities.rowBias then
      some fun _ => Placement.mk <$> config.biasInput p <*> pure true
    else if config.capabilities.biasGradient then
      some fun _ => Placement.mk <$> config.biasOutput p <*> pure true
    else none
  aux :=
    if config.capabilities.auxIn then
      some fun _ => Placement.mk <$> config.auxInput p <*> pure true
    else if config.capabilities.auxOut then
      some fun _ => Placement.mk <$> config.auxOutput p <*> pure true
    else none
  absMaxD :=
    if config.capabilities.absMaxD then some fun _ => .ok ⟨config.absMaxTensor "abs_max_D", true⟩
    else none
  absMaxAux :=
    if config.capabilities.absMaxAux then
      some fun _ => .ok ⟨config.absMaxTensor "abs_max_Aux", true⟩
    else none

/-- **The plan fills the slots as they are asked for.** -/
theorem slots_plan (x y : Float) : (config.plan p x y).slots = config.slotPlan p := by
  unfold Operands.slots plan outputPlan slotPlan
  cases config.capabilities.rowBias <;> cases config.capabilities.biasGradient <;>
    cases config.capabilities.auxIn <;> cases config.capabilities.auxOut <;> rfl

end Config

/-- The outputs that the reference computes: a slot that is filled for an input has none. -/
def Capabilities.refers (c : Capabilities) : Channel → Bool
  | .d => true
  | .absMaxD => c.absMaxD
  | .biasGradient => !c.rowBias && c.biasGradient
  | .aux => !c.auxIn && c.auxOut
  | .absMaxAux => c.absMaxAux

/-- The slot of an output is taken as one.  The features are asked only where the slot may hold an
input. -/
def Capabilities.opens (c : Capabilities) : Channel → Bool
  | .d | .absMaxD | .absMaxAux => true
  | .biasGradient => c.biasGradient
  | .aux => c.auxOut

namespace Slots

variable {α β : Type} (c : Capabilities)

section Reading
variable (s : Slots α)

/-- What is in the slot of an output. -/
def get? : Channel → Option α
  | .d => some s.d
  | .absMaxD => s.absMaxD
  | .biasGradient => s.bias
  | .aux => s.aux
  | .absMaxAux => s.absMaxAux

/-- Replaces what is in the slot of an output. -/
def set (channel : Channel) (x : α) : Slots α :=
  match channel with
  | .d => { s with d := x }
  | .absMaxD => { s with absMaxD := some x }
  | .biasGradient => { s with bias := some x }
  | .aux => { s with aux := some x }
  | .absMaxAux => { s with absMaxAux := some x }

/-- Applies a function to every slot. -/
def map (f : α → β) : Slots β where
  d := f s.d
  bias := s.bias.map f
  aux := s.aux.map f
  absMaxD := s.absMaxD.map f
  absMaxAux := s.absMaxAux.map f

/-! ### Arguments -/

/-- The bias that is read. -/
def biasIn : Option α := s.bias.filter fun _ => c.rowBias

/-- The auxiliary tensor that is read. -/
def auxIn : Option α := s.aux.filter fun _ => c.auxIn

/-- The outputs. -/
def outputs : Outputs α where
  d := s.d
  absMaxD := s.absMaxD
  biasGradient := s.bias.filter fun _ => c.biasGradient
  aux := s.aux.filter fun _ => c.auxOut
  absMaxAux := s.absMaxAux

theorem get?_outputs (channel : Channel) :
    (s.outputs c).get? channel = if c.opens channel then s.get? channel else none := by
  cases channel with
  | biasGradient => exact filter_const s.bias c.biasGradient
  | aux => exact filter_const s.aux c.auxOut
  | d | absMaxD | absMaxAux => rfl

/-- Replacing what is in a slot that is taken as an output replaces the output. -/
theorem outputs_set {channel : Channel} (hopen : c.opens channel = true)
    (hsome : (s.get? channel).isSome = true) (x : α) :
    (s.set channel x).outputs c = (s.outputs c).set channel x := by
  obtain ⟨y, hy⟩ := Option.isSome_iff_exists.mp hsome
  unfold get? at hy
  unfold Capabilities.opens at hopen
  cases channel <;> simp_all [set, outputs, Outputs.set, filter_const]

end Reading

/-- The slots have been changed as copying back does: none is filled, and those that are not taken
as outputs are as they were. -/
def Keeps (s s' : Slots α) : Prop :=
  ∀ channel, (s'.get? channel).isSome = (s.get? channel).isSome ∧
    (c.opens channel = false → s'.get? channel = s.get? channel)

section Keeps
variable {s s' s'' : Slots α}

theorem Keeps.refl (s : Slots α) : Keeps c s s := fun _ => ⟨rfl, fun _ => rfl⟩

variable {c}

theorem Keeps.trans (h : Keeps c s s') (h' : Keeps c s' s'') : Keeps c s s'' := fun channel =>
  ⟨(h' channel).1.trans (h channel).1,
    fun hclosed => ((h' channel).2 hclosed).trans ((h channel).2 hclosed)⟩

theorem keeps_set {channel : Channel} (hopen : c.opens channel = true)
    (hsome : (s.get? channel).isSome = true) (x : α) : Keeps c s (s.set channel x) := by
  intro other
  by_cases heq : channel = other
  · subst heq
    refine ⟨?_, fun hclosed => absurd hopen (by simp [hclosed])⟩
    rw [hsome]
    cases channel <;> rfl
  · have hsame : (s.set channel x).get? other = s.get? other := by
      cases channel <;> cases other <;> first | rfl | exact absurd rfl heq
    rw [hsame]
    exact ⟨rfl, fun _ => rfl⟩

end Keeps

/-! ### Copying back -/

section Pull
variable (device : Device) (s : Slots Staged)

/-- Copies a slot from the device, if there is something in it.  An error comes with the slots as
they were. -/
def pullSlot (channel : Channel) : Except (DeviceError × Slots Staged) (Slots Staged) :=
  match s.get? channel with
  | none => .ok s
  | some staged =>
    match staged.pull device with
    | .ok pulled => .ok (s.set channel pulled)
    | .error e => .error (e, s)

/-- Copies the outputs from the device until one cannot be copied. -/
def pull : Except (DeviceError × Slots Staged) (Slots Staged) := do
  let s ← s.pullSlot device .d
  let s ← s.pullSlot device .absMaxD
  let s ← if c.biasGradient then s.pullSlot device .biasGradient else pure s
  let s ← if c.auxOut then s.pullSlot device .aux else pure s
  s.pullSlot device .absMaxAux

/-- Copies a slot from the device, if it is taken as an output. -/
def pullOpen (channel : Channel) : Except (DeviceError × Slots Staged) (Slots Staged) :=
  if c.opens channel then s.pullSlot device channel else pure s

theorem pull_eq_foldlM :
    s.pull c device = Channel.all.foldlM (fun s channel => s.pullOpen c device channel) s := by
  cases hgradient : c.biasGradient <;> cases haux : c.auxOut <;>
    simp [pull, pullOpen, Channel.all, Capabilities.opens, hgradient, haux]

/-- The slots after copying, and the error that stopped it, if any. -/
def afterPull : Except (DeviceError × Slots Staged) (Slots Staged) →
    Option DeviceError × Slots Staged
  | .ok s => (none, s)
  | .error (e, s) => (some e, s)

/-- What copying one slot comes to. -/
theorem pullOpen_cases (channel : Channel) :
    ((s.outputs c).get? channel = none ∧ s.pullOpen c device channel = .ok s) ∨
    ∃ staged, (s.outputs c).get? channel = some staged ∧
      ((∃ e, staged.pull device = .error e ∧ s.pullOpen c device channel = .error (e, s)) ∨
        ∃ pulled s', staged.pull device = .ok pulled ∧ s.pullOpen c device channel = .ok s' ∧
          s'.outputs c = (s.outputs c).set channel pulled ∧ Keeps c s s') := by
  rw [get?_outputs, pullOpen]
  by_cases hopen : c.opens channel = true
  · rw [if_pos hopen, if_pos hopen, pullSlot]
    cases hs : s.get? channel with
    | none => exact .inl ⟨rfl, rfl⟩
    | some staged =>
      have hsome : (s.get? channel).isSome = true := by rw [hs]; rfl
      refine .inr ⟨staged, rfl, ?_⟩
      dsimp only
      cases staged.pull device with
      | error e => exact .inl ⟨e, rfl, rfl⟩
      | ok pulled =>
        exact .inr ⟨pulled, _, rfl, rfl, outputs_set c s hopen hsome pulled,
          keeps_set hopen hsome pulled⟩
  · rw [if_neg hopen, if_neg hopen]
    exact .inl ⟨rfl, rfl⟩

/-- **Copying slots back is copying back the outputs in them.** -/
theorem pullChannels_outputs (channels : List Channel) :
    let after := afterPull (channels.foldlM (fun s channel => s.pullOpen c device channel) s)
    Case.pullChannels device channels (s.outputs c) = (after.1, after.2.outputs c) ∧
      Keeps c s after.2 := by
  induction channels generalizing s with
  | nil => exact ⟨rfl, .refl c s⟩
  | cons channel rest ih =>
    rw [Case.pullChannels, List.foldlM_cons]
    obtain ⟨hnone, hstep⟩ | ⟨staged, hsome, ⟨e, hpull, hstep⟩ |
        ⟨pulled, s', hpull, hstep, heq, hkeeps⟩⟩ := pullOpen_cases c device s channel
    · rw [hnone, hstep]
      exact ih s
    · rw [hsome, hstep]
      dsimp only
      rw [hpull]
      exact ⟨rfl, .refl c s⟩
    · rw [hsome, hstep]
      dsimp only
      rw [hpull]
      dsimp only
      rw [← heq]
      exact ⟨(ih s').1, hkeeps.trans (ih s').2⟩

end Pull

/-! ### Comparing -/

/-- Compares the outputs in the slots with the reference.  The maximum of the auxiliary tensor is
compared where that tensor is. -/
def compare (comparison : Comparison) (addend : Tensor) (s : Slots Tensor) (r : Outputs Tensor) :
    Report :=
  let report := Report.requirePositiveNorm {} addend
  let report := if 1 < s.d.count then report.requirePositiveNorm s.d else report
  let report := if 1 < r.d.count then report.requirePositiveNorm r.d else report
  let report := report.check .d comparison r.d s.d
  let report := match s.absMaxD, r.absMaxD with
    | some actual, some expected => report.check .absMaxD comparison expected actual
    | _, _ => report
  let report := match s.bias, r.biasGradient with
    | some actual, some expected =>
      ((report.requirePositiveNorm actual).requirePositiveNorm expected).check .biasGradient
        comparison expected actual
    | _, _ => report
  match s.aux, r.aux with
  | some actual, some expected =>
    let report := ((report.requirePositiveNorm actual).requirePositiveNorm expected).check .aux
      comparison expected actual
    match s.absMaxAux, r.absMaxAux with
    | some actual, some expected => report.check .absMaxAux comparison expected actual
    | _, _ => report
  | _, _ => report

end Slots

/-! ### Operands in slots -/

/-- The operands that the features ask for are there, nothing is both read and written, and the
maximum of an auxiliary tensor comes with that tensor. -/
structure Operands.FitSlots {α : Type} (c : Capabilities) (o : Operands α) : Prop where
  isSome_bias : o.bias.isSome = c.rowBias
  isSome_auxIn : o.auxIn.isSome = c.auxIn
  isSome_output : ∀ channel, (o.outputs.get? channel).isSome = c.writes channel
  bias : (c.rowBias && c.biasGradient) = false
  aux : (c.auxIn && c.auxOut) = false
  absMaxAux : c.absMaxAux = true → c.auxOut = true

namespace Operands.FitSlots

variable {α : Type} {c : Capabilities} {o : Operands α} (h : o.FitSlots c)
include h

theorem biasIn_slots : o.slots.biasIn c = o.bias :=
  (filter_or_eq h.isSome_bias (h.isSome_output .biasGradient) h.bias).1

theorem auxIn_slots : o.slots.auxIn c = o.auxIn :=
  (filter_or_eq h.isSome_auxIn (h.isSome_output .aux) h.aux).1

theorem outputs_slots : o.slots.outputs c = o.outputs := by
  have hgradient := (filter_or_eq h.isSome_bias (h.isSome_output .biasGradient) h.bias).2
  have haux := (filter_or_eq h.isSome_auxIn (h.isSome_output .aux) h.aux).2
  exact congrArg₂ (fun gradient aux =>
    Outputs.mk o.outputs.d o.outputs.absMaxD gradient aux o.outputs.absMaxAux) hgradient haux

/-- The slots are those of the operands with their outputs. -/
theorem slots_withOutputs {s : Slots α} (hs : Slots.Keeps c o.slots s) :
    ({ o with outputs := s.outputs c } : Operands α).slots = s := by
  have hbias := or_filter_eq h.isSome_bias (h.isSome_output .biasGradient) h.bias
    (hs .biasGradient).1 (hs .biasGradient).2
  have haux := or_filter_eq h.isSome_auxIn (h.isSome_output .aux) h.aux
    (hs .aux).1 (hs .aux).2
  exact congrArg₂ (fun bias aux => Slots.mk s.d bias aux s.absMaxD s.absMaxAux) hbias haux

theorem withOutputs {s : Slots α} (hs : Slots.Keeps c o.slots s) :
    ({ o with outputs := s.outputs c } : Operands α).FitSlots c := by
  refine ⟨h.isSome_bias, h.isSome_auxIn, fun channel => ?_, h.bias, h.aux, h.absMaxAux⟩
  rw [← h.isSome_output channel, ← h.outputs_slots, Slots.get?_outputs, Slots.get?_outputs]
  split
  · exact (hs channel).1
  · rfl

end Operands.FitSlots

namespace Case

variable {case : Case}

/-! ### Copying slots back -/

/-- **Copying slots back is copying back the outputs in them**, up to the same error if there is
one. -/
theorem exists_pullOutputs_slots {c : Capabilities} (h : case.operands.FitSlots c)
    (later : Device) : ∃ error pulled, case.pullOutputs later = (error, pulled) ∧
      Slots.afterPull (case.operands.slots.pull c later) = (error, pulled.operands.slots) ∧
      pulled.operands.FitSlots c := by
  obtain ⟨hpull, hkeeps⟩ :=
    Slots.pullChannels_outputs c later case.operands.slots Channel.all
  rw [← Slots.pull_eq_foldlM] at hpull hkeeps
  rw [h.outputs_slots] at hpull
  generalize Slots.afterPull (case.operands.slots.pull c later) = after at hpull hkeeps ⊢
  obtain ⟨error, s⟩ := after
  refine ⟨error, { case with operands := { case.operands with outputs := s.outputs c } }, ?_, ?_,
    h.withOutputs hkeeps⟩
  · rw [pullOutputs, hpull]
  · rw [h.slots_withOutputs hkeeps]

/-! ### Comparing slots -/

theorem compareChannel_eq (report : Report) (channel : Channel) :
    case.compareChannel report channel =
      match case.outputs.get? channel, case.reference.get? channel with
      | some actual, some expected =>
        (requireNorm channel (requireNorm channel report actual) expected).check channel
          case.comparison expected actual
      | _, _ => report := by
  unfold compareChannel
  cases case.reference.get? channel <;> cases case.outputs.get? channel <;> rfl

theorem compareChannel_d (report : Report) : case.compareChannel report .d =
    (let report := if 1 < case.outputs.d.count then
        report.requirePositiveNorm case.outputs.d else report
      let report := if 1 < case.reference.d.count then
        report.requirePositiveNorm case.reference.d else report
      report.check .d case.comparison case.reference.d case.outputs.d) := by
  simp [compareChannel, Outputs.get?, requireNorm, expectsNorm]

section Gradient
variable (hbias : case.reference.biasGradient.isSome = true → case.operands.bias = none)
include hbias

/-- The slot of the bias is compared where the reference has a gradient. -/
theorem compareChannel_biasGradient (report : Report) :
    case.compareChannel report .biasGradient =
      match (case.operands.slots.map Staged.host).bias, case.reference.biasGradient with
      | some actual, some expected =>
        ((report.requirePositiveNorm actual).requirePositiveNorm expected).check .biasGradient
          case.comparison expected actual
      | _, _ => report := by
  rw [compareChannel_eq]
  dsimp only [Outputs.get?]
  cases hreference : case.reference.biasGradient with
  | none =>
    cases case.outputs.biasGradient <;> cases (case.operands.slots.map Staged.host).bias <;> rfl
  | some expected =>
    have hslot : (case.operands.slots.map Staged.host).bias = case.outputs.biasGradient :=
      map_or_of_none (hbias (by rw [hreference]; rfl)) Staged.host
    rw [hslot]
    cases case.outputs.biasGradient <;> rfl

end Gradient

section Aux
variable (haux : case.reference.aux.isSome = true → case.operands.auxIn = none)
  (hmax : case.outputs.absMaxAux.isSome = true →
    case.reference.aux.isSome = true ∧ case.outputs.aux.isSome = true)
include haux hmax

/-- The slot of the auxiliary tensor is compared where the reference has one, and its maximum with
it. -/
theorem compareChannel_aux (report : Report) :
    case.compareChannel (case.compareChannel report .aux) .absMaxAux =
      match (case.operands.slots.map Staged.host).aux, case.reference.aux with
      | some actual, some expected =>
        let report := ((report.requirePositiveNorm actual).requirePositiveNorm expected).check .aux
          case.comparison expected actual
        match (case.operands.slots.map Staged.host).absMaxAux, case.reference.absMaxAux with
        | some actual, some expected => report.check .absMaxAux case.comparison expected actual
        | _, _ => report
      | _, _ => report := by
  rw [compareChannel_eq, compareChannel_eq]
  dsimp only [Outputs.get?]
  -- without the tensor there is no maximum of it
  have hinactive : case.reference.aux = none ∨ case.outputs.aux = none →
      case.outputs.absMaxAux = none := by
    intro hnone
    rw [← Option.not_isSome_iff_eq_none]
    intro hsome
    obtain ⟨hreference, houtput⟩ := hmax hsome
    obtain hnone | hnone := hnone
    · rw [hnone] at hreference; cases hreference
    · rw [hnone] at houtput; cases houtput
  cases hreference : case.reference.aux with
  | none =>
    rw [hinactive (.inl hreference)]
    cases case.outputs.aux <;> cases (case.operands.slots.map Staged.host).aux <;> rfl
  | some expected =>
    have hslot : (case.operands.slots.map Staged.host).aux = case.outputs.aux :=
      map_or_of_none (haux (by rw [hreference]; rfl)) Staged.host
    rw [hslot]
    cases houtput : case.outputs.aux with
    | none => rw [hinactive (.inr houtput)]
    | some actual => rfl

end Aux

/-- **Comparing slots is comparing the outputs in them.** -/
theorem compare_eq_slots {c : Capabilities} (h : case.operands.FitSlots c)
    (hreference : case.reference.channels = c.channels) :
    case.compare = (case.operands.slots.map Staged.host).compare case.comparison
      case.operands.c.host case.reference := by
  have houtput : ∀ channel, (case.outputs.get? channel).isSome = c.writes channel := by
    intro channel
    rw [outputs, Outputs.get?_map, Option.isSome_map]
    exact h.isSome_output channel
  have href := Outputs.channels_eq_iff.mp hreference
  have hbias : case.reference.biasGradient.isSome = true → case.operands.bias = none :=
    fun hwritten => eq_none_of_exclusive h.isSome_bias h.bias
      ((href .biasGradient).symm.trans hwritten)
  have haux : case.reference.aux.isSome = true → case.operands.auxIn = none :=
    fun hwritten => eq_none_of_exclusive h.isSome_auxIn h.aux ((href .aux).symm.trans hwritten)
  have hmax : case.outputs.absMaxAux.isSome = true →
      case.reference.aux.isSome = true ∧ case.outputs.aux.isSome = true := by
    intro hactive
    have hout := h.absMaxAux ((houtput .absMaxAux).symm.trans hactive)
    exact ⟨(href .aux).trans hout, (houtput .aux).trans hout⟩
  show case.compareChannel (case.compareChannel (case.compareChannel (case.compareChannel
    (case.compareChannel _ .d) .absMaxD) .biasGradient) .aux) .absMaxAux = _
  rw [compareChannel_aux haux hmax, compareChannel_biasGradient hbias,
    compareChannel_eq _ .absMaxD, compareChannel_d]
  rfl

end Case

/-! ### Cases in slots -/

namespace Materialized

variable {config : Config} {p : Problem} {x y : Float} {device placed : Device} {case : Case}

theorem fitSlots (h : Materialized config p x y device case placed) :
    case.operands.FitSlots config.capabilities where
  isSome_bias := h.isSome_bias
  isSome_auxIn := h.isSome_auxIn
  isSome_output := h.isSome_output
  bias := h.valid.exclusive.1
  aux := h.valid.exclusive.2
  absMaxAux hactive := (Bool.and_eq_true_iff.mp (Bool.and_eq_true_iff.mp hactive).1).1

/-- The reference has what a slot that is filled for an output stands for. -/
theorem isSome_reference_slots (h : Materialized config p x y device case placed)
    (channel : Channel) :
    (case.reference.get? channel).isSome = config.capabilities.refers channel := by
  rw [h.isSome_reference channel]
  have hbias := h.fitSlots.bias
  have haux := h.fitSlots.aux
  cases channel with
  | biasGradient => unfold Capabilities.writes Capabilities.refers; grind
  | aux => unfold Capabilities.writes Capabilities.refers; grind
  | d | absMaxD | absMaxAux => rfl

end Materialized

/-- **An epilogue in slots makes the decisions of its case.**  For every case of a valid
configuration the arguments of a kernel and those of the reference are what the features make of the
slots, copying back stops at the same output with the same error or copies the same outputs, and
comparing gives the same report. -/
theorem Case.slots_agree {config : Config} {p : Problem} {x y : Float} {device placed : Device}
    {case : Case} (hd : device.Sound)
    (hset : Case.setUp config p x y device = (.ok case, placed)) :
    let c := config.capabilities
    let slots := case.operands.slots
    (∀ launch, case.arguments = .ok launch →
      launch.bias = (slots.biasIn c).map Staged.argument ∧
      launch.auxIn = (slots.auxIn c).map Staged.argument ∧
      launch.outputs = (slots.outputs c).map Staged.argument) ∧
    case.fusedProduct.bias = (slots.biasIn c).map Staged.host ∧
    case.fusedProduct.auxIn = (slots.auxIn c).map Staged.host ∧
    (∀ channel, (case.reference.get? channel).isSome = c.refers channel) ∧
    ∀ later, ∃ error pulled, case.pullOutputs later = (error, pulled) ∧
      Slots.afterPull (slots.pull c later) = (error, pulled.operands.slots) ∧
      ∀ compared : Case, compared.operands = pulled.operands →
        compared.reference.channels = c.channels →
        compared.compare = (compared.operands.slots.map Staged.host).compare compared.comparison
          compared.operands.c.host compared.reference := by
  intro c slots
  have h := materialized_of_setUp hd hset
  have hfit := h.fitSlots
  have hbias : slots.biasIn c = case.operands.bias := hfit.biasIn_slots
  have haux : slots.auxIn c = case.operands.auxIn := hfit.auxIn_slots
  have houtputs : slots.outputs c = case.operands.outputs := hfit.outputs_slots
  refine ⟨fun launch hlaunch => ?_, ?_, ?_, h.isSome_reference_slots, fun later => ?_⟩
  · obtain ⟨alpha, beta, scale, -, -, -, rfl⟩ := Case.arguments_eq_ok hlaunch
    rw [hbias, haux, houtputs]
    exact ⟨rfl, rfl, rfl⟩
  · rw [hbias]
    rfl
  · rw [haux]
    rfl
  · obtain ⟨error, pulled, hpull, hslots, hpulled⟩ := Case.exists_pullOutputs_slots hfit later
    refine ⟨error, pulled, hpull, hslots, fun compared hoperands hreference => ?_⟩
    exact Case.compare_eq_slots (hoperands ▸ hpulled) hreference

end FusedGemm
