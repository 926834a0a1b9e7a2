import Athena.ForStd.Run
import Athena.Native.RedisResult

/-!
# The cursor of a Redis reply

Which calls stay inside the reply.  The reads by pointer need an element under the cursor,
a binary read needs a text that is long enough, and every call but `isEmpty` needs a reply.
-/

namespace Athena.RedisResult

/-! ## Calls -/

/-- The calls of a result. -/
inductive Call where
  | isEmpty
  | fetch
  | getDataLen
  | getData
  | getStream
  | readValue (size : Nat)
  | readString
  deriving DecidableEq, Repr

/-- What a call answers and leaves. -/
def call (s : RedisResult) : Call → Option (RedisAnswer × RedisResult)
  | .isEmpty => some (.flag s.isEmpty, s)
  | .fetch => s.fetch.map fun b => (.flag b, s)
  | .getDataLen => s.getDataLen.map fun ((str, len), s) => (.data str (some len), s)
  | .getData => s.getData.map fun (str, s) => (.data str none, s)
  | .getStream => s.getStream.map fun (bytes, s) => (.view bytes, s)
  | .readValue size => (s.readValue size).map fun (bytes, s) => (bytes.elim .limit .value, s)
  | .readString => s.readString.map fun (bytes, s) => (bytes.elim .limit .word, s)

/-- A successful read. -/
def isRead : RedisAnswer → Bool
  | .flag _ => false
  | .limit => false
  | _ => true

/-- The cursor, and the number of successful reads so far. -/
structure Session where
  result : RedisResult
  reads : Nat

namespace Session

/-- A result that has just come. -/
def new (reply : Option RedisReply) : Session := { result := .new reply, reads := 0 }

/-- A call, and whether it was a read. -/
def step (t : Session) (c : Call) : Option Session :=
  (t.result.call c).map fun (answer, result) =>
    { result := result, reads := if isRead answer then t.reads + 1 else t.reads }

/-- The call stays inside the reply; what is too short for a value is reported, and after as
many reads as there are rows `fetch` is false. -/
def Safe (t : Session) (c : Call) : Prop :=
  ∃ answer result, t.result.call c = some (answer, result) ∧
    (∀ size, c = .readValue size →
      (∀ p, t.result.current.bind RedisReply.str = some p → p.length < size) → answer = .limit) ∧
    (∀ count, c = .fetch → t.result.getRowCount = some count → count.toNat ≤ t.reads →
      answer = .flag false)

/-- What keeps a call inside the reply. -/
def Fits (t : Session) : Call → Prop
  | .isEmpty => True
  | .fetch => ∃ count, t.result.getRowCount = some count ∧
      (count.toNat ≤ t.reads → count.toNat ≤ t.reads % 2 ^ 32)
  | .getDataLen => t.result.current.isSome
  | .getData => t.result.current.isSome
  | .getStream => ∃ r, t.result.current = some r ∧ r.len % 2 ^ 32 < 2 ^ 31
  | .readValue size => ∃ count, t.result.getRowCount = some count ∧
      (t.result.pos < count →
        ∃ p, t.result.current.bind RedisReply.str = some p ∧ size ≤ p.length)
  | .readString => ∃ count, t.result.getRowCount = some count ∧
      (t.result.pos < count → (t.result.current.bind RedisReply.str).isSome)

end Session

/-! ## One call -/

/-- A call that reads moves the cursor, and no other call does. -/
theorem call_pos {s s' : RedisResult} {c : Call} {answer : RedisAnswer}
    (h : s.call c = some (answer, s')) : s' = if isRead answer then s.next else s := by
  -- only `readValue` and `readString` go on
  cases c with
  | isEmpty =>
    obtain ⟨rfl, rfl⟩ := Prod.mk.inj (Option.some.inj h)
    rfl
  | fetch =>
    obtain ⟨b, -, h⟩ := Option.map_eq_some_iff.mp h
    obtain ⟨rfl, rfl⟩ := Prod.mk.inj h
    rfl
  | getDataLen =>
    obtain ⟨_, hdata, h⟩ := Option.map_eq_some_iff.mp h
    obtain ⟨r, -, rfl⟩ := Option.map_eq_some_iff.mp hdata
    obtain ⟨rfl, rfl⟩ := Prod.mk.inj h
    rfl
  | getData =>
    obtain ⟨_, hdata, h⟩ := Option.map_eq_some_iff.mp h
    obtain ⟨r, -, rfl⟩ := Option.map_eq_some_iff.mp hdata
    obtain ⟨rfl, rfl⟩ := Prod.mk.inj h
    rfl
  | getStream =>
    obtain ⟨_, hview, h⟩ := Option.map_eq_some_iff.mp h
    rw [getStream, getDataLen] at hview
    cases hcurrent : s.current with
    | none => rw [hcurrent] at hview; exact nomatch hview
    | some r =>
      simp only [hcurrent, Option.map_some] at hview
      split at hview
      · exact nomatch hview
      · obtain ⟨bytes, -, rfl⟩ := Option.map_eq_some_iff.mp hview
        obtain ⟨rfl, rfl⟩ := Prod.mk.inj h
        rfl
  | readValue size =>
    obtain ⟨_, hvalue, h⟩ := Option.map_eq_some_iff.mp h
    rw [readValue] at hvalue
    split at hvalue
    -- outside the reply, a null, then a value of its size
    · exact nomatch hvalue
    · split at hvalue
      · obtain rfl := Option.some.inj hvalue
        obtain ⟨rfl, rfl⟩ := Prod.mk.inj h
        rfl
      · split at hvalue
        · exact nomatch hvalue
        · obtain ⟨bytes, -, rfl⟩ := Option.map_eq_some_iff.mp hvalue
          obtain ⟨rfl, rfl⟩ := Prod.mk.inj h
          rfl
  | readString =>
    obtain ⟨_, hvalue, h⟩ := Option.map_eq_some_iff.mp h
    rw [readString] at hvalue
    split at hvalue
    · exact nomatch hvalue
    · split at hvalue
      · obtain rfl := Option.some.inj hvalue
        obtain ⟨rfl, rfl⟩ := Prod.mk.inj h
        rfl
      · split at hvalue
        · exact nomatch hvalue
        · obtain rfl := Option.some.inj hvalue
          obtain ⟨rfl, rfl⟩ := Prod.mk.inj h
          rfl

/-- The view is inside the text if its length has not become negative. -/
theorem getStream_isSome {s : RedisResult} :
    s.getStream.isSome ↔ ∃ r, s.current = some r ∧ r.len % 2 ^ 32 < 2 ^ 31 := by
  rw [getStream, getDataLen]
  cases s.current with
  | none => exact ⟨nofun, fun ⟨_, h, _⟩ => (nomatch h)⟩
  | some r =>
    have hlen : (r.str.getD []).length = r.len := rfl
    simp only [Option.map_some, Option.some.injEq, exists_eq_left']
    rw [← Block.intLength_nonneg]
    split
    · next hneg => exact ⟨nofun, fun hpos => absurd hneg (by omega)⟩
    · next hpos =>
      have := Block.intLength_le r.len
      rw [Option.isSome_map, Block.read_isSome, hlen]
      omega

/-- A binary read stays inside the text if that has the bytes of the value. -/
theorem readValue_isSome {s : RedisResult} {size : Nat} :
    (s.readValue size).isSome ↔
      ∃ count, s.getRowCount = some count ∧ (s.pos < count →
        ∃ p, s.current.bind RedisReply.str = some p ∧ size ≤ p.length) := by
  rw [readValue, getFieldsCount]
  cases s.getRowCount with
  | none => exact ⟨nofun, fun ⟨_, h, _⟩ => (nomatch h)⟩
  | some count =>
    simp only [Option.some.injEq, exists_eq_left']
    split
    · next hend => exact ⟨fun _ hlt => absurd hlt (UInt32.not_lt.mpr hend), fun _ => rfl⟩
    · next hend =>
      rw [forall_prop_of_true (UInt32.not_le.mp hend)]
      cases s.current.bind RedisReply.str with
      | none => exact ⟨nofun, fun ⟨_, h, _⟩ => (nomatch h)⟩
      | some p => simp only [Option.isSome_map, Block.read_isSome, Option.some.injEq, exists_eq_left']

/-- A string is read where the current element has one, and past the end. -/
theorem readString_isSome {s : RedisResult} :
    s.readString.isSome ↔
      ∃ count, s.getRowCount = some count ∧ (s.pos < count →
        (s.current.bind RedisReply.str).isSome) := by
  rw [readString, getFieldsCount]
  cases s.getRowCount with
  | none => exact ⟨nofun, fun ⟨_, h, _⟩ => (nomatch h)⟩
  | some count =>
    simp only [Option.some.injEq, exists_eq_left']
    split
    · next hend => exact ⟨fun _ hlt => absurd hlt (UInt32.not_lt.mpr hend), fun _ => rfl⟩
    · next hend =>
      rw [forall_prop_of_true (UInt32.not_le.mp hend)]
      cases s.current.bind RedisReply.str <;> simp

/-- What is too short for the value is not read: the call has no result, or it reports. -/
theorem readValue_short {s s' : RedisResult} {size : Nat} {bytes : Option (List UInt8)}
    (h : s.readValue size = some (bytes, s'))
    (hshort : ∀ p, s.current.bind RedisReply.str = some p → p.length < size) : bytes = none := by
  rw [readValue] at h
  split at h
  · exact nomatch h
  · split at h
    · exact (Prod.mk.inj (Option.some.inj h)).1.symm
    · split at h
      · exact nomatch h
      · next p hp =>
        obtain ⟨cells, hread, -⟩ := Option.map_eq_some_iff.mp h
        have := (Block.read_eq_some.mp hread).1
        have := hshort p hp
        omega

namespace Session

/-- The cursor counts the reads in 32 bits. -/
def Counts (t : Session) : Prop := t.result.pos.toNat = t.reads % 2 ^ 32

/-- Every call keeps the count. -/
theorem step_counts {t t' : Session} {c : Call} (h : t.Counts) (hstep : t.step c = some t') :
    t'.Counts := by
  obtain ⟨⟨answer, s'⟩, hcall, rfl⟩ := Option.map_eq_some_iff.mp hstep
  obtain rfl := call_pos hcall
  cases hread : isRead answer with
  | false => simpa only [Counts, hread, Bool.false_eq_true, if_false] using h
  | true =>
    simp only [Counts] at h
    simp only [Counts, hread, if_true, next, UInt32.toNat_add, h]
    show (t.reads % 2 ^ 32 + 1) % 2 ^ 32 = (t.reads + 1) % 2 ^ 32
    omega

/-- Only a binary read and `fetch` have to give a certain answer. -/
theorem safe_of_ne {t : Session} {c : Call} (hvalue : ∀ size, c ≠ .readValue size)
    (hfetch : c ≠ .fetch) : t.Safe c ↔ (t.result.call c).isSome := by
  constructor
  · intro ⟨answer, s', hcall, _⟩
    rw [hcall]
    rfl
  · intro h
    obtain ⟨⟨answer, s'⟩, hcall⟩ := Option.isSome_iff_exists.mp h
    exact ⟨answer, s', hcall, fun size hc => absurd hc (hvalue size),
      fun count hc => absurd hc hfetch⟩

/-- A call is safe when it fits. -/
theorem safe_iff {t : Session} {c : Call} (h : t.Counts) : t.Safe c ↔ t.Fits c := by
  cases c with
  | isEmpty =>
    rw [safe_of_ne (c := .isEmpty) (fun _ h => (nomatch h)) (fun h => (nomatch h)), call, Fits]
    exact ⟨fun _ => trivial, fun _ => rfl⟩
  | getDataLen =>
    rw [safe_of_ne (c := .getDataLen) (fun _ h => (nomatch h)) (fun h => (nomatch h)), call,
      Option.isSome_map, getDataLen, Option.isSome_map, Fits]
  | getData =>
    rw [safe_of_ne (c := .getData) (fun _ h => (nomatch h)) (fun h => (nomatch h)), call,
      Option.isSome_map, getData, Option.isSome_map, Fits]
  | getStream =>
    rw [safe_of_ne (c := .getStream) (fun _ h => (nomatch h)) (fun h => (nomatch h)), call,
      Option.isSome_map, getStream_isSome, Fits]
  | readString =>
    rw [safe_of_ne (c := .readString) (fun _ h => (nomatch h)) (fun h => (nomatch h)), call,
      Option.isSome_map, readString_isSome, Fits]
  -- a reply that is too short for the value gives the report, not its bytes
  | readValue size =>
    rw [Fits, ← readValue_isSome]
    constructor
    · intro ⟨answer, s', hcall, _⟩
      obtain ⟨_, hread, -⟩ := Option.map_eq_some_iff.mp hcall
      rw [hread]
      rfl
    · intro hsome
      obtain ⟨⟨bytes, s'⟩, hread⟩ := Option.isSome_iff_exists.mp hsome
      refine ⟨_, s', by rw [call, hread]; rfl, fun size' hsize hshort => ?_, nofun⟩
      obtain rfl := Call.readValue.inj hsize
      rw [readValue_short hread hshort]
      rfl
  -- `fetch` compares the position with the count
  | fetch =>
    rw [Counts] at h
    simp only [Safe, Fits, call, fetch]
    cases t.result.getRowCount with
    | none => exact ⟨fun ⟨_, _, h, _⟩ => (nomatch h), fun ⟨_, h, _⟩ => (nomatch h)⟩
    | some count =>
      constructor
      · intro ⟨answer, s', hcall, _, hfalse⟩
        obtain ⟨rfl, rfl⟩ := Prod.mk.inj (Option.some.inj hcall)
        refine ⟨count, rfl, fun hle => ?_⟩
        have hanswer : (if t.result.pos ≥ count then false else true) = false :=
          RedisAnswer.flag.inj (hfalse count trivial rfl hle)
        rw [← h]
        by_cases hend : t.result.pos ≥ count
        · exact UInt32.le_iff_toNat_le.mp hend
        · rw [if_neg hend] at hanswer
          exact nomatch hanswer
      · intro ⟨count', hcount, hends⟩
        obtain rfl := Option.some.inj hcount
        refine ⟨_, _, rfl, fun _ hc => (nomatch hc), fun count' _ hcount' hle => ?_⟩
        obtain rfl := Option.some.inj hcount'
        have hend : t.result.pos ≥ count := UInt32.le_iff_toNat_le.mpr (by rw [h]; exact hends hle)
        exact congrArg RedisAnswer.flag (if_pos hend)

/-! ## Runs -/

/-- From a new cursor, the calls of a run are all safe exactly if they all fit. -/
theorem calls_safe (reply : Option RedisReply) (cs : List Call) :
    Run.Meets step Safe (new reply) cs ↔ Run.Meets step Fits (new reply) cs := by
  have hnew : (new reply).Counts := rfl
  generalize new reply = t at hnew
  induction cs generalizing t with
  | nil => exact Iff.rfl
  | cons c cs ih =>
    rw [Run.Meets, Run.Meets, safe_iff hnew]
    refine and_congr_right fun _ => ?_
    split
    · next t' hstep => exact ih t' (step_counts hnew hstep)
    · exact Iff.rfl

/-- The reply for one key that does not exist, as `MGET` has it. -/
theorem nil_element_unsafe :
    ¬ ∀ (reply : Option RedisReply) (cs : List Call), Run.Meets step Safe (new reply) cs := by
  intro h
  obtain ⟨-, ⟨answer, s', hcall, -⟩, -⟩ := h (some (.array [.nil])) [.fetch, .readString]
  exact nomatch hcall

end Session

end Athena.RedisResult
