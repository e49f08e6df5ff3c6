import Havn.Lib.Calendar
import Havn.Lib.Json

/-!
# Frames between the gateway and a channel adapter

`havn-proto/src/channel.rs`: one WebSocket for each account carries both directions.
-/

namespace Havn.Proto

open Lib Lib.Calendar

inductive ChannelMessageContent
  | text (text : String)
  | image (url : String) (caption : Option String)
  | file (url filename : String)
  | audio (transcript : String) (durationSeconds : Option UInt32) (url : Option String)
  | location (latitude longitude : Float) (accuracyMeters : Option Float32)
      (name address : Option String)
  | contact (displayName : String) (phoneNumber vcard : Option String)

structure ChannelInbound where
  seq : UInt64
  accountId : String
  channelMessageId : String
  senderId : String
  content : ChannelMessageContent
  timestamp : Instant
  raw : Option Json := none

structure ChannelOutbound where
  seq : UInt64
  accountId : String
  to' : String
  inReplyTo : Option String
  content : ChannelMessageContent

structure ChannelResume where
  accountId : String
  sinceSeq : UInt64

inductive ChannelFrame
  | inbound (frame : ChannelInbound)
  | outbound (frame : ChannelOutbound)
  | resume (frame : ChannelResume)
  | ping
  | pong

end Havn.Proto
