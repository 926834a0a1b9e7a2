import Athena.Native.Channel

/-!
# Taking a packet apart (`transport/Decoder.cpp`, `Dispatcher.h`)

`onMsg` gets a packet with its length and calls `parseHeader`, then `decodeMsg`,
which looks the message id up in the process-wide `Dispatcher` table and parses the
body.  Parsing a protobuf body is an argument of the model (`ParseFromArray`); the
object pool behind it is not modelled.
-/

namespace Athena

/-- `DecodedMsg`, the header part: `body` is `none` for `nullptr`. -/
structure DecodedMsg where
  msgId : Int32 := 0
  body : Option (List UInt8) := none
  bodyLen : Int := 0
  playerId : Int64 := 0
  deriving DecidableEq, Repr

/-- `DecodeResult`. -/
inductive DecodeResult where
  | OK
  | BAD_HEADER
  | NOT_REGISTERED
  | PARSE_FAILED
  | CHANNEL_GONE
  deriving DecidableEq, Repr

/-- An entry of the `Dispatcher` table: the parser of its message type. -/
structure MsgFunction (M : Type) where
  ParseFromArray : List UInt8 → Option M

/-- `MsgFunction::parseParam`: an empty body is not parsed. -/
def MsgFunction.parseParam {M : Type} (f : MsgFunction M) (body : List UInt8) : Option M :=
  if body.length ≤ 0 then none else f.ParseFromArray body

namespace Decoder

open Channel ByteUtils

/-- `Decoder::parseHeader`: what it leaves in `*out`.  `buff` is `none` for
    `nullptr`, and `len` is the length of the packet. -/
def parseHeader (mode : ProtoMode) (buff : Option (List UInt8)) (out : DecodedMsg) : DecodedMsg :=
  let headerLen := headerLen mode
  match buff with
  | none => { out with msgId := 0, body := none, bodyLen := 0 }
  | some frame =>
    if frame.length < headerLen then { out with msgId := 0, body := none, bodyLen := 0 }
    else if readInt32 (frame.drop (magicOff mode)) ≠ MAGIC_NUM then
      { out with msgId := 0, body := none, bodyLen := 0 }
    else
      let out := if mode = .INNER then
          { out with playerId := (readInt32 (frame.drop 8)).toInt32.toInt64 }
        else out
      { out with
        msgId := (readInt32 (frame.drop 4)).toInt32
        body := some (frame.drop headerLen)
        bodyLen := frame.length - headerLen }

/-- `Decoder::decodeMsg`, with the parsed message when there is one.  `channelLive`
    says whether `channelPtr` still finds the channel in its loop's registry. -/
def decodeMsg {M : Type} (findMsgFunction : Int32 → Option (MsgFunction M)) (channelLive : Bool)
    (out : DecodedMsg) : DecodeResult × Option M :=
  match out.body with
  | none => (.BAD_HEADER, none)
  | some body =>
    match findMsgFunction out.msgId with
    | none => (.NOT_REGISTERED, none)
    | some msg_function =>
      if !channelLive then (.CHANNEL_GONE, none)
      else
        match msg_function.parseParam body with
        | none => (.PARSE_FAILED, none)
        | some msg => (.OK, some msg)

end Decoder

end Athena
