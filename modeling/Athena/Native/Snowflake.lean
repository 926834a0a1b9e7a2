/-!
# Snowflake ids (`core/utils/Snowflake.h`)

`nextIdImp` reads the clock, waits while it is behind the last id, and counts the ids of a
millisecond.  The readings of the clock are a list, from which each call takes what it
reads; a call for which there are too few readings is still waiting, and has no result.
`mutex_` makes the calls of one instance a sequence.
-/

namespace Athena

structure Snowflake where
  workerId_ : Int64
  lastTimestamp_ : Int64
  sequence_ : Int64
  deriving DecidableEq, Repr

/-- An id, and the reading of the clock that it was issued for. -/
structure Issued where
  id : Int64
  timestamp : Int64
  deriving DecidableEq, Repr

namespace Snowflake

def WORKER_ID_BITS : Int64 := 10

def SEQUENCE_BITS : Int64 := 12

def MAX_WORKER_ID : Int64 := (1 <<< WORKER_ID_BITS) - 1

def SEQUENCE_MASK : Int64 := (1 <<< SEQUENCE_BITS) - 1

def WORKER_ID_SHIFT : Int64 := SEQUENCE_BITS

def TIMESTAMP_SHIFT : Int64 := SEQUENCE_BITS + WORKER_ID_BITS

/-- 2020-01-01 00:00:00 UTC. -/
def EPOCH : Int64 := 1577836800000

/-- The constructor, for a `workerId` that it does not refuse. -/
def new (workerId : Int64) : Snowflake :=
  { workerId_ := workerId, lastTimestamp_ := 0, sequence_ := 0 }

def getTimestamp (id : Int64) : Int64 := (id >>> TIMESTAMP_SHIFT) + EPOCH

/-- The bit layout. -/
def layout (timestamp workerId sequence : Int64) : Int64 :=
  ((timestamp - EPOCH) <<< TIMESTAMP_SHIFT) ||| (workerId <<< WORKER_ID_SHIFT) ||| sequence

/-- Read the clock until the reading is good: that reading, and the readings after it. -/
def waitFor (good : Int64 → Bool) : List Int64 → Option (Int64 × List Int64)
  | [] => none
  | timestamp :: clock => if good timestamp then some (timestamp, clock) else waitFor good clock

/-- The end of `nextIdImp`. -/
def issue (s : Snowflake) (timestamp sequence : Int64) : Issued × Snowflake :=
  ({ id := layout timestamp s.workerId_ sequence, timestamp := timestamp },
    { s with lastTimestamp_ := timestamp, sequence_ := sequence })

/-- Wait for the clock to catch up with the last id. -/
def catchUp (s : Snowflake) : List Int64 → Option (Int64 × List Int64)
  | [] => none
  | timestamp :: clock =>
    if timestamp < s.lastTimestamp_ then waitFor (fun t => ¬t < s.lastTimestamp_) clock
    else some (timestamp, clock)

def nextIdImp (s : Snowflake) (clock : List Int64) :
    Option ((Issued × Snowflake) × List Int64) :=
  match s.catchUp clock with
  | none => none
  | some (timestamp, clock) =>
    if timestamp = s.lastTimestamp_ then
      let sequence := (s.sequence_ + 1) &&& SEQUENCE_MASK
      if sequence = 0 then
        -- the ids of this millisecond are used up
        match waitFor (fun t => ¬t ≤ s.lastTimestamp_) clock with
        | none => none
        | some (timestamp, clock) => some (s.issue timestamp sequence, clock)
      else some (s.issue timestamp sequence, clock)
    else some (s.issue timestamp 0, clock)

/-- The ids of so many calls, one after the other. -/
def nextIds : Nat → Snowflake → List Int64 → Option (List Issued)
  | 0, _, _ => some []
  | n + 1, s, clock => do
    let ((r, s'), rest) ← s.nextIdImp clock
    let out ← nextIds n s' rest
    some (r :: out)

end Snowflake

end Athena
