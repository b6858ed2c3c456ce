import FusedGemm.Proofs.Trial.Requests
import FusedGemm.Proofs.Trial.Stopping

/-!
# Tensors that are too large

Setting up a case stops at the first request that cannot be laid out (`Config.acquire_cases`), so a
tensor whose size is not addressable is never made.  A packed tensor, alpha and beta are refused for
their shape.  A column of biases is asked for without a check: where it is the first tensor that is
too large, setting up ends with no failure of shape (`Case.setUp_oversized`).
-/

namespace FusedGemm

/-- A list has one first element that fails a test. -/
theorem first_unique {α : Type} {P : α → Prop} [DecidablePred P]
    {before after earlier later : List α} {a b : α}
    (h : before ++ a :: after = earlier ++ b :: later) (hbefore : ∀ c ∈ before, P c)
    (ha : ¬ P a) (hearlier : ∀ c ∈ earlier, P c) (hb : ¬ P b) : before = earlier ∧ a = b := by
  have htake := congrArg (List.takeWhile P) h
  rw [List.takeWhile_append_of_pos (by simpa using hbefore),
    List.takeWhile_append_of_pos (by simpa using hearlier), List.takeWhile_cons_of_neg (by simpa),
    List.takeWhile_cons_of_neg (by simpa), List.append_nil, List.append_nil] at htake
  subst htake
  exact ⟨rfl, (List.cons.inj (List.append_cancel_left h)).1⟩

/-! ### The first refusal -/

namespace Config

variable {config : Config} {p : Problem} {x y : Float}

/-- Everything requested is laid out, or there is a first request that is not. -/
theorem exists_refused {entries : List Entry} {requests : List Request}
    (h : List.Forall₂ (Entry.Serves config p) entries requests) :
    (∀ r ∈ requests, r.bytes < AddressSpace.limit) ∧ Asks entries (Request.placed requests) ∨
      ∃ before entry after earlier request later e,
        entries = before ++ entry :: after ∧ requests = earlier ++ request :: later ∧
        (∀ r ∈ earlier, r.bytes < AddressSpace.limit) ∧ Asks before (Request.placed earlier) ∧
        entry () = .error e ∧ Entry.Serves config p entry request := by
  induction h with
  | nil => exact Or.inl ⟨by simp, Asks.nil⟩
  | @cons entry request entries requests hserves _ ih =>
    cases hentry : entry () with
    | error e =>
      exact Or.inr ⟨[], entry, entries, [], request, requests, e, rfl, rfl, by simp, Asks.nil,
        hentry, hserves⟩
    | ok placement =>
      obtain ⟨hsize, hdevice, hlt⟩ := hserves.ok placement hentry
      have hplaced : ∀ rs, Request.placed (request :: rs) =
          placement.sizes ++ Request.placed rs := by
        intro rs
        rw [Placement.sizes, hsize, hdevice, Request.placed, List.filter_cons]
        split_ifs <;> rfl
      have hcons : ∀ rs : List Request, (∀ r ∈ rs, r.bytes < AddressSpace.limit) →
          ∀ r ∈ request :: rs, r.bytes < AddressSpace.limit := fun rs hrs =>
        List.forall_mem_cons.mpr ⟨hlt, hrs⟩
      rcases ih with ⟨hall, hasks⟩ |
        ⟨before, entry', after, earlier, request', later, e, rfl, rfl, hearlier, hasks, herror⟩
      · refine Or.inl ⟨hcons _ hall, ?_⟩
        rw [hplaced]
        exact (Asks.of_ok hentry).append hasks
      · refine Or.inr ⟨entry :: before, entry', after, request :: earlier, request', later, e, rfl,
          rfl, hcons _ hearlier, ?_, herror⟩
        rw [hplaced]
        exact (Asks.of_ok hentry).append hasks

theorem stops_acquire {before after : List Entry} {entry : Entry} {sizes : List Nat} {e : Failure}
    (hplan : (config.plan p x y).toList = before ++ entry :: after) (hasks : Asks before sizes)
    (he : entry () = .error e) : Stops (config.acquire p x y) sizes e := by
  have hoperands := Stops.operands_mapM hplan (fun entry' hmem => by
    obtain ⟨placement, hok⟩ := hasks.laidOut entry' hmem
    exact takes_entry hok) ((Stops.ofExcept he).bind Acquire.place)
  rw [hasks.sizes_eq] at hoperands
  exact hoperands.bind _

/-- **Acquiring the operands** takes all that is requested if this is addressable, and otherwise
stops at the first request that is refused. -/
theorem acquire_cases (hv : config.Valid) (p : Problem) (x y : Float) :
    (∀ r ∈ config.requests p, r.bytes < AddressSpace.limit) ∧
        Takes (config.acquire p x y) (Request.placed (config.requests p)) ∨
      ∃ earlier request later r, config.requests p = earlier ++ request :: later ∧
        (∀ r' ∈ earlier, r'.bytes < AddressSpace.limit) ∧
        (r = request ∨ r ∈ config.requestsBeforeBias p) ∧ AddressSpace.limit ≤ r.bytes ∧
        Stops (config.acquire p x y) (Request.placed earlier) r.refusal := by
  rcases exists_refused (config.plan_serves p x y) with ⟨hall, hasks⟩ |
    ⟨before, entry, after, earlier, request, later, e, hplan, hrequests, hearlier, hasks, he,
      hserves⟩
  · exact Or.inl ⟨hall, takes_acquire_of_asks hv hasks⟩
  · obtain ⟨r, hr, rfl, hle⟩ := hserves.error e he
    exact Or.inr ⟨earlier, request, later, r, hrequests, hearlier, hr, hle,
      stops_acquire hplan hasks he⟩

end Config

/-! ### Setting up -/

section SetUp
variable {config : Config} {p : Problem} {x y : Float} {device : Device}

namespace Case

/-- All tensors that a case has on the host. -/
def hostTensors (case : Case) : List Tensor :=
  case.operands.toList.map Staged.host ++ Channel.all.filterMap case.reference.get?

/-- Where a column of biases is the first tensor that is too large, and what is made before it fits,
setting up ends without storage for it. -/
theorem exists_setUp_unaddressable (hd : device.Sound) (hv : config.Valid)
    (hneeds : config.capabilities.needsBias = true)
    (hlarge : AddressSpace.limit ≤ p.m * config.typeBias.size)
    (hbefore : ∀ r ∈ config.requestsBeforeBias p, r.bytes < AddressSpace.limit)
    (hroom : device.HasRoom (Request.placed (config.requestsBeforeBias p)).sum) :
    ∃ after, Case.setUp config p x y device =
      (.error (.unaddressable (config.biasRequest p).name), after) := by
  rw [hv.setUp_eq]
  have hrequests : config.requests p =
      config.requestsBeforeBias p ++ config.biasRequest p :: config.requestsAfterBias p := by
    rw [Config.requests, if_pos hneeds]
    rfl
  rcases Config.acquire_cases hv p x y with ⟨hall, -⟩ |
    ⟨earlier, request, later, r, hsplit, hearlier, hr, hle, hstops⟩
  · have hlt := hall (config.biasRequest p) (by simp [hrequests])
    exact absurd hlarge (Nat.not_le.mpr hlt)
  · obtain rfl : r = request := hr.resolve_right fun hmem =>
      absurd (hbefore r hmem) (Nat.not_lt.mpr hle)
    rw [hrequests] at hsplit
    obtain ⟨rfl, rfl⟩ := first_unique hsplit hbefore (Nat.not_lt.mpr hlarge) hearlier
      (Nat.not_lt.mpr hle)
    exact hstops.run_of_hasRoom hd hroom

/-- And nowhere else. -/
theorem of_setUp_unaddressable (hd : device.Sound) (hv : config.Valid) {name : String}
    {after : Device}
    (h : Case.setUp config p x y device = (.error (.unaddressable name), after)) :
    name = (config.biasRequest p).name ∧ config.capabilities.needsBias = true ∧
      AddressSpace.limit ≤ p.m * config.typeBias.size ∧
      (∀ r ∈ config.requestsBeforeBias p, r.bytes < AddressSpace.limit) ∧
      device.HasRoom (Request.placed (config.requestsBeforeBias p)).sum := by
  rw [hv.setUp_eq] at h
  rcases Config.acquire_cases hv p x y with ⟨-, htakes⟩ |
    ⟨earlier, request, later, r, hsplit, hearlier, hr, hle, hstops⟩
  · by_cases hroom : device.HasRoom (Request.placed (config.requests p)).sum
    · obtain ⟨case, placed, hok, -⟩ := htakes.run_of_hasRoom hd hroom
      cases h.symm.trans hok
    · obtain ⟨requested, available, after', herror⟩ := Starves.run htakes.fails hd hroom
      cases h.symm.trans herror
  · obtain ⟨e, after', herror, ⟨hroom, rfl⟩ | ⟨-, requested, available, rfl⟩⟩ := hstops.run_cases hd
    · have hrefusal : Failure.unaddressable name = r.refusal :=
        Except.error.inj (congrArg Prod.fst (h.symm.trans herror))
      have hchecked : r.checked = false := by
        by_contra hchecked
        rw [Request.refusal, if_pos (by simpa using hchecked)] at hrefusal
        cases hrefusal
      obtain rfl : r = request := hr.resolve_right fun hmem =>
        absurd (Config.checked_of_mem_requestsBeforeBias r hmem) (by simp [hchecked])
      rw [Request.refusal, hchecked] at hrefusal
      obtain ⟨hneeds, rfl, rfl⟩ := Config.eq_bias_of_not_checked hsplit hchecked
      exact ⟨Failure.unaddressable.inj hrefusal, hneeds, hle, hearlier, hroom⟩
    · cases h.symm.trans herror

/-- A tensor that is too large is refused, unless memory is too short for what comes before. -/
theorem exists_setUp_error (hd : device.Sound) (hv : config.Valid) {large : Request}
    (hmem : large ∈ config.requests p) (hlarge : AddressSpace.limit ≤ large.bytes) :
    ∃ e after, Case.setUp config p x y device = (.error e, after) ∧
      ((∃ r ∈ config.requests p, AddressSpace.limit ≤ r.bytes ∧ e = r.refusal) ∨
        ∃ requested available, e = .device (.outOfMemory requested available) ∧
          ∃ earlier, earlier <+: config.requests p ∧
            (∀ r ∈ earlier, r.bytes < AddressSpace.limit) ∧
            ¬ device.HasRoom (Request.placed earlier).sum) := by
  rw [hv.setUp_eq]
  rcases Config.acquire_cases hv p x y with ⟨hall, -⟩ |
    ⟨earlier, request, later, r, hsplit, hearlier, hr, hle, hstops⟩
  · exact absurd hlarge (Nat.not_le.mpr (hall large hmem))
  · obtain ⟨e, after, herror, ⟨-, rfl⟩ | ⟨hroom, hshort⟩⟩ := hstops.run_cases hd
    · have hrequested : r ∈ config.requests p := by
        rcases hr with rfl | hbefore
        · simp [hsplit]
        · exact List.mem_append_left _ hbefore
      exact ⟨_, after, herror, Or.inl ⟨r, hrequested, hle, rfl⟩⟩
    · obtain ⟨requested, available, rfl⟩ := hshort
      refine ⟨_, after, herror, Or.inr ⟨requested, available, rfl, earlier, ?_, hearlier, hroom⟩⟩
      rw [hsplit]
      exact List.prefix_append _ _

/-- **A case that is set up has the requested tensors**, and their sizes are addressable. -/
theorem sizes_of_setUp (hd : device.Sound) (hv : config.Valid) {case : Case} {placed : Device}
    (hset : Case.setUp config p x y device = (.ok case, placed)) :
    case.operands.toList.map (fun staged => staged.host.byteSize) =
        (config.requests p).map Request.bytes ∧
      ∀ r ∈ config.requests p, r.bytes < AddressSpace.limit := by
  have hm := materialized_of_setUp hd hset
  refine ⟨Config.sizes_eq_of_serves (config.plan_serves p x y) hm.meets.forall₂_toList, ?_⟩
  rw [hv.setUp_eq] at hset
  rcases Config.acquire_cases hv p x y with ⟨hall, -⟩ |
    ⟨earlier, request, later, r, -, -, -, -, hstops⟩
  · exact hall
  · obtain ⟨e, after, herror, -⟩ := hstops.run_cases hd
    cases hset.symm.trans herror

/-- So are those of the outputs of the reference. -/
theorem byteSize_lt_of_setUp (hd : device.Sound) (hv : config.Valid) {case : Case} {placed : Device}
    (hset : Case.setUp config p x y device = (.ok case, placed)) :
    ∀ t ∈ case.hostTensors, t.byteSize < AddressSpace.limit := by
  obtain ⟨hsizes, hlt⟩ := sizes_of_setUp hd hv hset
  have hoperand : ∀ staged ∈ case.operands.toList,
      staged.host.byteSize < AddressSpace.limit := by
    intro staged hmem
    have hsize := List.mem_map_of_mem (f := fun staged : Staged => staged.host.byteSize) hmem
    rw [hsizes] at hsize
    obtain ⟨r, hr, hbytes⟩ := List.mem_map.mp hsize
    exact hbytes ▸ hlt r hr
  intro t ht
  rcases List.mem_append.mp ht with hmem | hmem
  · obtain ⟨staged, hstaged, rfl⟩ := List.mem_map.mp hmem
    exact hoperand staged hstaged
  · obtain ⟨channel, -, hreference⟩ := List.mem_filterMap.mp hmem
    obtain ⟨staged, houtput, halike⟩ :=
      (materialized_of_setUp hd hset).exists_output_of_reference hreference
    rw [halike.byteSize_eq]
    exact hoperand staged (Operands.mem_toList_of_output houtput)

/-- **Tensors that are too large.**  If any tensor of a case has a size that is not addressable,
setting up fails: a tensor that is too large is refused, or device memory is too short for what
comes before.  It is refused for its shape, but for the bias or its gradient, whose size nothing
checks.  The device has the allocations that it had.  A case that is set up has the requested
tensors, each of addressable size. -/
theorem setUp_oversized (hd : device.Sound) (hv : config.Valid) :
    ((∃ r ∈ config.requests p, AddressSpace.limit ≤ r.bytes) →
      ∃ e after, Case.setUp config p x y device = (.error e, after) ∧
        after.allocations = device.allocations ∧
        after.allocatedBytes = device.allocatedBytes ∧
        after.liveAllocations = device.liveAllocations ∧
        ((∃ r ∈ config.requests p, AddressSpace.limit ≤ r.bytes ∧ e = r.refusal) ∨
          ∃ requested available, e = .device (.outOfMemory requested available) ∧
            ∃ earlier, earlier <+: config.requests p ∧
              (∀ r ∈ earlier, r.bytes < AddressSpace.limit) ∧
              ¬ device.HasRoom (Request.placed earlier).sum)) ∧
    (∀ name, (∃ after, Case.setUp config p x y device = (.error (.unaddressable name), after)) ↔
      name = (config.biasRequest p).name ∧ config.capabilities.needsBias = true ∧
        AddressSpace.limit ≤ p.m * config.typeBias.size ∧
        (∀ r ∈ config.requestsBeforeBias p, r.bytes < AddressSpace.limit) ∧
        device.HasRoom (Request.placed (config.requestsBeforeBias p)).sum) ∧
    ∀ case placed, Case.setUp config p x y device = (.ok case, placed) →
      case.operands.toList.map (fun staged => staged.host.byteSize) =
        (config.requests p).map Request.bytes ∧
      ∀ t ∈ case.hostTensors, t.byteSize < AddressSpace.limit := by
  refine ⟨?_, fun name => ⟨?_, ?_⟩, ?_⟩
  · rintro ⟨large, hmem, hlarge⟩
    obtain ⟨e, after, herror, hkind⟩ := exists_setUp_error (x := x) (y := y) hd hv hmem hlarge
    obtain ⟨hsound, hallocations⟩ := allocations_setUp_of_error hd herror
    refine ⟨e, after, herror, hallocations, ?_, congrArg List.length hallocations, hkind⟩
    rw [hsound.allocatedBytes_eq, hd.allocatedBytes_eq, Device.lengths, Device.lengths,
      hallocations]
  · rintro ⟨after, herror⟩
    exact of_setUp_unaddressable hd hv herror
  · rintro ⟨rfl, hneeds, hlarge, hbefore, hroom⟩
    exact exists_setUp_unaddressable hd hv hneeds hlarge hbefore hroom
  · intro case placed hset
    exact ⟨(sizes_of_setUp hd hv hset).1, byteSize_lt_of_setUp hd hv hset⟩

end Case

end SetUp

/-! ### Many rows and no columns -/

/-- A bias for each row. -/
def Config.biased : Config where
  fusion := { rowBias := true }

/-- So many rows that a column of 32-bit numbers is too large, and no columns. -/
def Problem.manyRows : Problem := .single 4611686018427387904 0 0

/-- A single matrix of as many rows is refused for its shape. -/
theorem Case.setUp_oversized_manyRows : ({} : Device).Sound ∧ ({} : Config).Valid ∧
    ∃ name extent after,
      Case.setUp {} (.single 4611686018427387904 1 1) 1 1 {} =
        (.error (.oversized name extent), after) ∧ after.liveAllocations = 0 := by
  have hd : ({} : Device).Sound := Device.sound_empty none
  have hv : ({} : Config).Valid := by decide
  obtain ⟨hlarge, -, -⟩ := Case.setUp_oversized (p := .single 4611686018427387904 1 1)
    (x := 1) (y := 1) hd hv
  obtain ⟨e, after, herror, -, -, hlive, hkind⟩ := hlarge ⟨_, List.mem_cons_self, by decide⟩
  rcases hkind with ⟨r, hr, -, rfl⟩ | ⟨requested, available, -, earlier, -, -, hroom⟩
  · have hall : ∀ r ∈ ({} : Config).requests (.single 4611686018427387904 1 1),
        r.checked = true := by decide
    have hchecked := hall r hr
    refine ⟨hd, hv, r.name, r.extent, after, ?_, hlive⟩
    rw [herror, Request.refusal, if_pos hchecked]
  · exact absurd (fun available h => by cases h) hroom

/-- A bias of as many rows is too large, but not refused for its shape, nor is memory short. -/
theorem Case.setUp_unaddressable_manyRows :
    (∃ r ∈ Config.biased.requests .manyRows, AddressSpace.limit ≤ r.bytes) ∧
      ∃ e after, Case.setUp .biased .manyRows 1 1 {} = (.error e, after) ∧
        (∀ name extent, e ≠ .oversized name extent) ∧
        ∀ requested available, e ≠ .device (.outOfMemory requested available) := by
  have hneeds : Config.biased.capabilities.needsBias = true := by decide
  obtain ⟨after, herror⟩ := Case.exists_setUp_unaddressable (p := .manyRows) (x := 1) (y := 1)
    (Device.sound_empty none) (by decide) hneeds (by decide) (by decide)
    (fun available h => by cases h)
  have hmem : Config.biased.biasRequest .manyRows ∈ Config.biased.requests .manyRows :=
    List.mem_append_right _ List.mem_cons_self
  exact ⟨⟨_, hmem, by decide⟩, _, after, herror, by simp, by simp⟩

end FusedGemm
