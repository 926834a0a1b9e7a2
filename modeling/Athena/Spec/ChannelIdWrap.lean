import Mathlib.Tactic.Ring
import Athena.Native.ChannelIds

/-!
# How long channel ids are good

The ids are the numbers from 1 on, up to `2 ^ 32`.  So as long as fewer than `2 ^ 32`
channels are made none gets the id 0, and no two channels have the same id, live or not.
With the channel number `2 ^ 32` the counter is 0 again, and the one after it has the id
of the first channel, which may still be in `channels_`.

## Key results

- `meets_fresh_iff`: the ids of a run are good exactly if it makes fewer than `2 ^ 32` channels
-/

namespace Athena

namespace ChannelIds

/-- A new id is not 0 and is that of no live channel, and `registerChannel` does not
    overwrite another channel. -/
def Fresh (s : ChannelIds) : Act → Prop
  | .newChannel =>
    s.generateId ≠ 0 ∧ ∀ loop id channel, s.channels_ loop id = some channel →
      s.ids[channel]? ≠ some s.generateId
  | .registerChannel loop channel =>
    ∀ id, s.ids[channel]? = some id → ∀ other, s.channelById loop id = some other → other = channel
  | .releaseChannel _ _ => True

/-- The channels that a run makes. -/
def made (acts : List Act) : Nat := acts.count .newChannel

/-! ## The ids -/

/-- The ids in the order of the counter; a registry has the channels under their ids. -/
structure Inv (s : ChannelIds) : Prop where
  next : s.next_id = UInt32.ofNat s.ids.length
  ids : ∀ i id, s.ids[i]? = some id → id = UInt32.ofNat (i + 1)
  registered : ∀ loop id channel, s.channels_ loop id = some channel → s.ids[channel]? = some id

/-- No id has been given out yet. -/
theorem inv_init : Inv init where
  next := rfl
  ids i id h := by cases h
  registered loop id channel h := by cases h

/-- The next id is the number of the next channel, modulo 2³². -/
theorem Inv.generateId {s : ChannelIds} (h : Inv s) :
    s.generateId = UInt32.ofNat (s.ids.length + 1) := by
  rw [ChannelIds.generateId, h.next, UInt32.ofNat_add]
  rfl

/-- An entry after an entry has been written. -/
theorem entry_of_update {f : Nat → UInt32 → Option Nat} {loop loop' channel : Nat} {id id' : UInt32}
    {entry : Option Nat}
    (h : Function.update f loop (Function.update (f loop) id entry) loop' id' = some channel) :
    id' = id ∧ entry = some channel ∨ f loop' id' = some channel := by
  by_cases hloop : loop' = loop
  · subst hloop
    rw [Function.update_self] at h
    by_cases hid : id' = id
    · rw [hid, Function.update_self] at h
      exact .inl ⟨hid, h⟩
    · rw [Function.update_of_ne hid] at h
      exact .inr h
  · rw [Function.update_of_ne hloop] at h
    exact .inr h

/-- Every step keeps this. -/
theorem inv_step (s : ChannelIds) (a : Act) (s' : ChannelIds) (h : Inv s) (hstep : step s a = some s') :
    Inv s' := by
  cases a with
  | newChannel =>
    obtain rfl := Option.some.inj hstep
    refine ⟨?_, fun i id hid => ?_, fun loop id channel hchannel => ?_⟩
    · have hnext := h.generateId
      rw [ChannelIds.generateId] at hnext
      rw [List.length_append, List.length_singleton]
      exact hnext
    -- the new channel has the next number, the others keep theirs
    · by_cases hlt : i < s.ids.length
      · rw [List.getElem?_append_left hlt] at hid
        exact h.ids i id hid
      · have hi : i = s.ids.length := by
          have := (List.getElem?_eq_some_iff.mp hid).1
          rw [List.length_append, List.length_singleton] at this
          omega
        rw [hi, List.getElem?_concat_length] at hid
        rw [← Option.some.inj hid, hi]
        exact h.generateId
    · have hold := h.registered loop id channel hchannel
      rw [List.getElem?_append_left (List.getElem?_eq_some_iff.mp hold).1]
      exact hold
  | registerChannel loop channel =>
    obtain ⟨id, hid, rfl⟩ := Option.map_eq_some_iff.mp hstep
    refine ⟨h.next, h.ids, fun loop' id' channel' hchannel => ?_⟩
    -- the entry that is written is that of the channel, any other was there
    rcases entry_of_update hchannel with ⟨rfl, hentry⟩ | hold
    · exact Option.some.inj hentry ▸ hid
    · exact h.registered loop' id' channel' hold
  | releaseChannel loop channel =>
    obtain ⟨id, hid, rfl⟩ := Option.map_eq_some_iff.mp hstep
    refine ⟨h.next, h.ids, fun loop' id' channel' hchannel => ?_⟩
    rcases entry_of_update hchannel with ⟨-, hentry⟩ | hold
    · cases hentry
    · exact h.registered loop' id' channel' hold

/-! ## Good ids -/

/-- Below 2³² no two numbers give one id. -/
theorem ofNat_inj {m n : Nat} (hm : m < 2 ^ 32) (hn : n < 2 ^ 32)
    (h : UInt32.ofNat m = UInt32.ofNat n) : m = n := by
  have hnat := congrArg UInt32.toNat h
  rwa [UInt32.toNat_ofNat_of_lt' hm, UInt32.toNat_ofNat_of_lt' hn] at hnat

/-- A new id is good unless the counter comes to 0. -/
theorem fresh_newChannel_iff {s : ChannelIds} (h : Inv s) (hlt : s.ids.length < 2 ^ 32) :
    Fresh s .newChannel ↔ s.ids.length + 1 < 2 ^ 32 := by
  rw [Fresh, h.generateId]
  constructor
  · rintro ⟨hzero, -⟩
    by_contra hge
    have hlength : s.ids.length + 1 = 2 ^ 32 := by omega
    rw [hlength] at hzero
    exact hzero rfl
  · intro hnext
    constructor
    · intro hzero
      have hzero' : UInt32.ofNat (s.ids.length + 1) = UInt32.ofNat 0 := hzero
      have := ofNat_inj hnext (by omega) hzero'
      omega
    · intro loop id channel hchannel heq
      -- the channel is an older one
      have hold := (List.getElem?_eq_some_iff.mp (h.registered loop id channel hchannel)).1
      have hid := h.ids channel _ heq
      have := ofNat_inj hnext (by omega) hid
      omega

/-- Before the wrap every id is fresh. -/
theorem fresh_registerChannel {s : ChannelIds} (h : Inv s) (hlt : s.ids.length < 2 ^ 32)
    (loop channel : Nat) : Fresh s (.registerChannel loop channel) := by
  intro id hid other hother
  have hregistered := h.registered loop id other hother
  have hlt' := (List.getElem?_eq_some_iff.mp hid).1
  have hlt'' := (List.getElem?_eq_some_iff.mp hregistered).1
  have heq := (h.ids other id hregistered).symm.trans (h.ids channel id hid)
  have := ofNat_inj (by omega) (by omega) heq
  omega

/-- The ids of a run are fresh as long as they do not wrap. -/
theorem meets_iff {s s' : ChannelIds} {acts : List Act} (h : Inv s) (hlt : s.ids.length < 2 ^ 32)
    (hrun : Run.run step s acts = some s') :
    Run.Meets step Fresh s acts ↔ s.ids.length + made acts < 2 ^ 32 := by
  induction acts generalizing s with
  | nil => exact ⟨fun _ => hlt, fun _ => trivial⟩
  | cons a acts ih =>
    obtain ⟨m, hm, hrest⟩ := Run.run_cons hrun
    have hinv := inv_step s a m h hm
    rw [Run.Meets, hm]
    cases a with
    | newChannel =>
      have hmade : made (.newChannel :: acts) = made acts + 1 := List.count_cons_self
      have hlength : m.ids.length = s.ids.length + 1 := by
        obtain rfl := Option.some.inj hm
        exact List.length_append
      -- one more channel on both sides; it is fresh below `2 ^ 32` only
      rw [fresh_newChannel_iff h hlt, hmade]
      constructor
      · rintro ⟨hnext, hmeets⟩
        have := (ih hinv (by omega) hrest).mp hmeets
        omega
      · intro hall
        exact ⟨by omega, (ih hinv (by omega) hrest).mpr (by omega)⟩
    | registerChannel loop channel =>
      have hlength : m.ids = s.ids := by
        obtain ⟨id, -, rfl⟩ := Option.map_eq_some_iff.mp hm
        rfl
      have hmade : made (.registerChannel loop channel :: acts) = made acts :=
        List.count_cons_of_ne (by simp)
      have hiff := ih hinv (by rwa [hlength]) hrest
      rw [hlength] at hiff
      rw [hmade, ← hiff]
      exact ⟨fun hmeets => hmeets.2, fun hmeets => ⟨fresh_registerChannel h hlt loop channel, hmeets⟩⟩
    | releaseChannel loop channel =>
      have hlength : m.ids = s.ids := by
        obtain ⟨id, -, rfl⟩ := Option.map_eq_some_iff.mp hm
        rfl
      have hmade : made (.releaseChannel loop channel :: acts) = made acts :=
        List.count_cons_of_ne (by simp)
      have hiff := ih hinv (by rwa [hlength]) hrest
      rw [hlength] at hiff
      rw [hmade, ← hiff]
      exact ⟨fun hmeets => hmeets.2, fun hmeets => ⟨trivial, hmeets⟩⟩

/-- The ids of any history are good as long as it makes fewer than `2 ^ 32` channels, and no
    longer. -/
theorem meets_fresh_iff {acts : List Act} {s : ChannelIds} (hrun : Run.run step init acts = some s) :
    Run.Meets step Fresh init acts ↔ made acts < 2 ^ 32 := by
  have hiff := meets_iff inv_init (by decide) hrun
  have hlength : init.ids.length = 0 := rfl
  rwa [hlength, Nat.zero_add] at hiff

/-- A channel is made, registered, and released. -/
theorem meets_fresh_one : Run.Meets step Fresh init
    [.newChannel, .registerChannel 0 0, .releaseChannel 0 0, .newChannel, .registerChannel 1 1] :=
  (meets_fresh_iff rfl).mpr (by decide)

/-! ## The wrap -/

/-- Any number of channels can be made. -/
theorem run_newChannels (s : ChannelIds) (k : Nat) :
    ∃ s', Run.run step s (List.replicate k .newChannel) = some s' ∧
      s'.ids.length = s.ids.length + k ∧ s'.channels_ = s.channels_ := by
  induction k generalizing s with
  | zero => exact ⟨s, rfl, rfl, rfl⟩
  | succ k ih =>
    obtain ⟨s', hrun, hlength, hchannels⟩ :=
      ih { s with next_id := s.next_id + 1, ids := s.ids ++ [s.generateId] }
    refine ⟨s', hrun, ?_, hchannels⟩
    rw [hlength, List.length_append, List.length_singleton]
    omega

/-- The first channel is registered, and `k` more are made. -/
theorem run_firstChannel {k : Nat} (hk : k + 1 = 2 ^ 32) : ∃ s,
    Run.run step init (.newChannel :: .registerChannel 0 0 :: List.replicate k .newChannel) = some s ∧
    s.ids[k]? = some 0 ∧ s.channelById 0 s.generateId = some 0 := by
  obtain ⟨s, hrun, hlength, hchannels⟩ := run_newChannels
    { next_id := 1, ids := [1]
      channels_ := Function.update init.channels_ 0 (Function.update (init.channels_ 0) 1 (some 0)) } k
  have hall : Run.run step init
      (.newChannel :: .registerChannel 0 0 :: List.replicate k .newChannel) = some s := hrun
  have hinv : Inv s := Run.invariant inv_step inv_init hall
  have hwrap : s.ids.length = 2 ^ 32 := by
    rw [hlength, ← hk, Nat.add_comm]
    rfl
  refine ⟨s, hall, ?_, ?_⟩
  · have hlt : k < s.ids.length := by omega
    have hid := hinv.ids k s.ids[k] (List.getElem?_eq_getElem hlt)
    rw [List.getElem?_eq_getElem hlt, hid, hk]
    rfl
  · have hone : s.generateId = 1 := by
      rw [hinv.generateId, hwrap]
      rfl
    rw [hone, channelById, hchannels]
    rfl

/-- The first channel stays registered while the counter goes round: the channel number
    `2 ^ 32` has the id 0, and the next one would get the id of the first. -/
theorem ids_wrap : ∃ s,
    Run.run step init (.newChannel :: .registerChannel 0 0 ::
      List.replicate (2 ^ 32 - 1) .newChannel) = some s ∧
    s.ids[2 ^ 32 - 1]? = some 0 ∧ s.channelById 0 s.generateId = some 0 := by
  exact run_firstChannel rfl

end ChannelIds

end Athena
