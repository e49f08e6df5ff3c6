import Mathlib.Data.String.Basic
import Havn.Core.Ids
import Havn.Lib.Delimited

/-!
# Channel ids of adapter conversations

`havn-gateway/src/channel_id_codec.rs`: the id under which an agent sees an adapter's conversation
is the triple (channel, account, sender), written with `|` between the parts.
-/

namespace Havn.Gateway.ChannelIdCodec

open Havn.Core Lib

def channelIdMarker : String := "ch|"

def encode (channel accountId senderId : String) : String :=
  channelIdMarker ++ channel ++ "|" ++ accountId ++ "|" ++ senderId

def decode (channelId : String) : Option (String × String × String) := do
  let body ← channelIdMarker.toList.isPrefixOf? channelId.toList
  -- `splitn(3, '|')`: the third part keeps any further separator
  let (channel, rest) ← splitOnce '|' body
  let (accountId, senderId) ← splitOnce '|' rest
  if channel.isEmpty ∨ accountId.isEmpty ∨ senderId.isEmpty then none
  else some (.ofList channel, .ofList accountId, .ofList senderId)

def validateChannelIdPart (debug : String → String) (label value : String) : Except String Unit :=
  if value.isEmpty then .error (label ++ " must not be empty")
  else if '|' ∈ value.toList then
    .error (label ++ " must not contain `|` (pipe is the channel_id separator); got "
      ++ debug value)
  else .ok ()

def ValidPart (value : String) : Prop :=
  value ≠ "" ∧ '|' ∉ value.toList
  deriving Decidable

theorem validateChannelIdPart_eq_ok {debug : String → String} {label value : String} :
    validateChannelIdPart debug label value = .ok () ↔ ValidPart value := by
  unfold validateChannelIdPart ValidPart
  split
  · rename_i empty
    simp [String.isEmpty_iff.mp empty]
  · rename_i nonempty
    rw [String.isEmpty_iff] at nonempty
    split
    · rename_i pipe
      simp [pipe]
    · rename_i free
      simp [nonempty, free]

/-- **The round trip.**  The sender may hold any character. -/
theorem decode_encode {channel accountId senderId : String} (validChannel : ValidPart channel)
    (validAccount : ValidPart accountId) (sender : senderId ≠ "") :
    decode (encode channel accountId senderId) = some (channel, accountId, senderId) := by
  have body : channelIdMarker.toList.isPrefixOf? (encode channel accountId senderId).toList =
      some (channel.toList ++ '|' :: (accountId.toList ++ '|' :: senderId.toList)) := by
    rw [List.isPrefixOf?_eq_some_iff_append_eq]
    simp [encode]
  have nonempty : ∀ s : String, s ≠ "" → s.toList.isEmpty = false := by
    intro s
    simp
  simp only [decode, body, splitOnce_append validChannel.2, splitOnce_append validAccount.2,
    nonempty _ validChannel.1, nonempty _ validAccount.1, nonempty _ sender, String.ofList_toList,
    Option.bind_eq_bind, Option.bind_some]
  rfl

theorem pipe_mem_of_decode {channelId : String} {parts : String × String × String}
    (decoded : decode channelId = some parts) : '|' ∈ channelId.toList := by
  simp only [decode, Option.bind_eq_bind, Option.bind_eq_some_iff] at decoded
  obtain ⟨body, stripped, -⟩ := decoded
  rw [← List.isPrefixOf?_eq_some_iff_append_eq.mp stripped]
  exact List.mem_append_left _ (by decide)

theorem decode_toString (uuid : Uuid) : decode uuid.toString = none :=
  Option.eq_none_iff_forall_ne_some.mpr fun _ decoded =>
    uuid.not_mem_toString (c := '|') (by decide) (pipe_mem_of_decode decoded)

theorem encode_of_decode {channelId channel accountId senderId : String}
    (decoded : decode channelId = some (channel, accountId, senderId)) :
    encode channel accountId senderId = channelId := by
  simp only [decode, Option.bind_eq_bind, Option.bind_eq_some_iff] at decoded
  obtain ⟨body, stripped, ⟨c, rest⟩, first, ⟨a, s⟩, second, parts⟩ := decoded
  dsimp only at second parts
  split at parts
  · cases parts
  cases parts
  rw [← String.toList_inj, ← List.isPrefixOf?_eq_some_iff_append_eq.mp stripped,
    splitOnce_eq_some first, splitOnce_eq_some second]
  simp [encode]

theorem isUuidText_encode (channel accountId senderId : String) :
    isUuidText (encode channel accountId senderId) = false := by
  have text : (encode channel accountId senderId).toList =
      'c' :: 'h' :: '|' :: (channel ++ "|" ++ accountId ++ "|" ++ senderId).toList := by
    simp [encode, channelIdMarker]
  simp [isUuidText, isHyphenated, text, isHexDigit]

/-- **An id names one conversation and nothing else**: it reads back as its parts, only ids are
read, and none is the broadcast or a console session's UUID. -/
theorem channelId_laws :
    (∀ channel accountId senderId, ValidPart channel → ValidPart accountId → senderId ≠ "" →
      decode (encode channel accountId senderId) = some (channel, accountId, senderId)) ∧
    (∀ channelId channel accountId senderId,
      decode channelId = some (channel, accountId, senderId) →
        encode channel accountId senderId = channelId) ∧
    ∀ channel accountId senderId, encode channel accountId senderId ≠ "broadcast" ∧
      isUuidText (encode channel accountId senderId) = false := by
  refine ⟨fun _ _ _ => decode_encode, fun _ _ _ _ => encode_of_decode, fun c a s => ⟨?_, ?_⟩⟩
  · intro same
    have first := congrArg (·.toList.head?) same
    simp [encode, channelIdMarker] at first
  · exact isUuidText_encode c a s

theorem telegram_laws :
    decode (encode "telegram" "bot" "tg|1") = some ("telegram", "bot", "tg|1") ∧
      encode "telegram" "bot" "tg|1" = "ch|telegram|bot|tg|1" :=
  ⟨channelId_laws.1 _ _ _ (by decide) (by decide) (by decide),
    channelId_laws.2.1 _ _ _ _ (by decide +kernel)⟩

end Havn.Gateway.ChannelIdCodec
