import Havn.Lib.Calendar
import Havn.Lib.Json

/-!
# Messages

`havn-core/src/message.rs`: what goes to an agent and what comes back, whatever the channel.  An
agent answers by putting the id of the message it answers into its own.
-/

namespace Havn.Core

open Lib Lib.Calendar

inductive MessageContent
  | text (text : String)
  | image (url : String) (caption : Option String)
  | file (url filename : String)
  | audio (transcript : String) (durationSeconds : Option UInt32) (url : Option String)
  | location (latitude longitude : Float) (accuracyMeters : Option Float32)
      (name address : Option String)
  | contact (displayName : String) (phoneNumber vcard : Option String)

structure InboundMessage where
  channelId : String
  senderId : String
  channel : String
  content : MessageContent
  timestamp : Instant
  raw : Json := .null

structure OutboundMessage where
  channelId : String
  content : MessageContent
  replyTo : Option String

end Havn.Core
