import FusedGemm.Proofs.Trial.Placement
import FusedGemm.Trial.Case

/-!
# Copying outputs back

What is pulled are the bytes at the pointer of an output (`Staged.pull_eq_ok`).  Pulling the outputs
of a case changes their host copies and nothing else (`Case.pullOutputs_eq_ok`), and it succeeds
where all of them are live or empty (`Staged.exists_pull`, `Case.exists_pullOutputs`).
-/

namespace FusedGemm

/-! ### One buffer -/

/-- What is downloaded are the bytes at the pointer, none where the buffer is empty. -/
theorem Buffer.download_eq_ok {buffer : Buffer} {n : Nat} {device : Device} {bytes : List UInt8}
    (h : buffer.download n device = .ok bytes) (hd : device.Sound)
    (hnull : buffer.length = 0 → buffer.pointer = .null) :
    bytes = (device.contents? buffer.pointer).getD [] ∧ bytes.length = n := by
  unfold download at h
  split_ifs at h with hn hzero
  · cases h
    rw [hnull hzero, Device.contents?_eq_none_iff.mpr hd.null_notMem]
    exact ⟨rfl, by rw [List.length_nil]; omega⟩
  · unfold Device.read at h
    cases hc : device.contents? buffer.pointer with
    | none => rw [hc] at h; cases h
    | some found =>
      rw [hc] at h
      dsimp only at h
      split_ifs at h with hl
      cases h
      exact ⟨rfl, hl⟩

theorem Staged.pull_eq_ok {staged staged' : Staged} {device : Device}
    (h : staged.pull device = .ok staged') (hd : device.Sound) (hb : staged.buffer.isSome = true)
    (hfits : staged.Fits) :
    staged'.host = staged.host.withBytes ((device.contents? staged.pointer).getD []) ∧
      ((device.contents? staged.pointer).getD []).length = staged.host.byteSize := by
  obtain ⟨host, _ | buffer⟩ := staged
  · cases hb
  · unfold pull at h
    dsimp only at h
    cases hdown : buffer.download host.byteSize device with
    | error e => rw [hdown] at h; cases h
    | ok bytes =>
      rw [hdown] at h
      cases h
      obtain ⟨rfl, hlength⟩ := Buffer.download_eq_ok hdown hd (hfits buffer rfl).2.mpr
      exact ⟨rfl, hlength⟩

/-- A buffer that is live or empty can be copied back. -/
theorem Staged.exists_pull {staged : Staged} {device : Device} (hfits : staged.Fits)
    (h : staged.pointer ≠ .null → ∃ bytes, device.contents? staged.pointer = some bytes ∧
      bytes.length = staged.host.byteSize) : ∃ pulled, staged.pull device = .ok pulled := by
  obtain ⟨host, _ | buffer⟩ := staged
  · exact ⟨_, rfl⟩
  · obtain ⟨hlength, hnull⟩ := hfits buffer rfl
    unfold pull
    dsimp only
    by_cases hzero : buffer.length = 0
    · rw [Buffer.download, if_neg (fun hne => hne hlength.symm), if_pos hzero]
      exact ⟨_, rfl⟩
    · obtain ⟨bytes, hbytes, hsize⟩ := h fun heq => hzero (hnull.mp heq)
      have hread : device.read buffer.pointer host.byteSize = .ok bytes :=
        Device.read_eq_ok hbytes hsize
      rw [Buffer.download, if_neg (fun hne => hne hlength.symm), if_neg hzero, hread]
      exact ⟨_, rfl⟩

/-! ### All outputs -/

namespace Case

variable {case pulled : Case} {device : Device} {channels : List Channel} {o o' : Outputs Staged}

/-- Each of the channels is copied back once, and the others stay as they were. -/
theorem pullChannels_eq_ok (hnodup : channels.Nodup)
    (h : pullChannels device channels o = (none, o')) (channel : Channel) :
    Option.Rel (fun staged staged' =>
        if channel ∈ channels then staged.pull device = .ok staged' else staged' = staged)
      (o.get? channel) (o'.get? channel) := by
  induction channels generalizing o with
  | nil =>
    cases h
    cases o'.get? channel with
    | none => exact .none
    | some staged => exact .some (by simp)
  | cons c cs ih =>
    rw [List.nodup_cons] at hnodup
    unfold pullChannels at h
    cases hc : o.get? c with
    | none =>
      rw [hc] at h
      have hrest := ih hnodup.2 h
      by_cases heq : channel = c
      · rw [heq, hc] at hrest ⊢
        cases hout : o'.get? c with
        | none => exact .none
        | some staged' => rw [hout] at hrest; cases hrest
      · simpa [heq] using hrest
    | some staged =>
      rw [hc] at h
      dsimp only at h
      cases hpull : staged.pull device with
      | error e => rw [hpull] at h; cases h
      | ok pulled =>
        rw [hpull] at h
        have hrest := ih hnodup.2 h
        by_cases heq : channel = c
        · subst heq
          rw [Outputs.get?_set_self, hc] at hrest
          rw [hc]
          simp only [hnodup.1, if_false] at hrest
          cases hout : o'.get? channel with
          | none => rw [hout] at hrest; cases hrest
          | some staged' =>
            rw [hout] at hrest
            cases hrest with
            | some hs => exact .some (by simpa [hs] using hpull)
        · rw [Outputs.get?_set_of_ne (Ne.symm heq)] at hrest
          simpa [heq] using hrest

/-- A pull changes the host copies of the outputs and nothing else. -/
theorem pullOutputs_eq_ok (h : case.pullOutputs device = (none, pulled)) :
    pulled = { case with operands := { case.operands with outputs := pulled.operands.outputs } } ∧
      ∀ channel, Option.Rel (fun staged staged' => staged.pull device = .ok staged')
        (case.operands.outputs.get? channel) (pulled.operands.outputs.get? channel) := by
  unfold pullOutputs at h
  cases hp : pullChannels device Channel.all case.operands.outputs with
  | mk error outputs =>
    rw [hp] at h
    cases h
    refine ⟨rfl, fun channel => ?_⟩
    have hall : channel ∈ Channel.all := by cases channel <;> decide
    have hrel := pullChannels_eq_ok (by decide) hp channel
    simpa [hall] using hrel

theorem exists_pullChannels (hnodup : channels.Nodup)
    (h : ∀ channel ∈ channels, ∀ staged, o.get? channel = some staged →
      ∃ pulled, staged.pull device = .ok pulled) :
    ∃ o', pullChannels device channels o = (none, o') := by
  induction channels generalizing o with
  | nil => exact ⟨o, rfl⟩
  | cons c cs ih =>
    rw [List.nodup_cons] at hnodup
    have hrest := fun channel hmem => h channel (List.mem_cons_of_mem c hmem)
    unfold pullChannels
    cases hc : o.get? c with
    | none => exact ih hnodup.2 hrest
    | some staged =>
      obtain ⟨pulled, hpull⟩ := h c List.mem_cons_self staged hc
      dsimp only
      rw [hpull]
      refine ih hnodup.2 fun channel hmem staged' hs => hrest channel hmem staged' ?_
      -- the channels that are left are not the one that was replaced
      have hne : c ≠ channel := fun heq => hnodup.1 (heq ▸ hmem)
      rwa [Outputs.get?_set_of_ne hne] at hs

/-- All outputs can be copied back if each of them can. -/
theorem exists_pullOutputs (h : ∀ channel staged, case.operands.outputs.get? channel = some staged →
    ∃ pulled, staged.pull device = .ok pulled) :
    ∃ pulled, case.pullOutputs device = (none, pulled) := by
  have hnodup : Channel.all.Nodup := by decide
  obtain ⟨outputs, houtputs⟩ := exists_pullChannels hnodup fun channel _ => h channel
  unfold pullOutputs
  rw [houtputs]
  exact ⟨_, rfl⟩

end Case

end FusedGemm
