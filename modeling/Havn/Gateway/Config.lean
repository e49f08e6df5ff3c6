import Mathlib.Data.List.AList
import Havn.Gateway.ChannelIdCodec
import Havn.Lib.Except

/-!
# Channel accounts and bindings

`havn-gateway/src/config.rs`: the accounts of each channel and the agents they are bound to.
Loading a file refuses ids that the channel-id codec could not carry; `ChannelConfig` is what
loading lets through.
-/

namespace Havn.Gateway.Config

open Lib ChannelIdCodec

inductive DmPolicy
  | allowlist
  | open'
  | ownerOnly
deriving DecidableEq

structure ChannelAccount where
  id : String
  adapterTokenRef : String
  dmPolicy : DmPolicy := .ownerOnly
  allowFrom : List String := []
deriving DecidableEq

structure ChannelEntry where
  accounts : List ChannelAccount := []

structure ChannelBindingConfig where
  agentId : String
  channel : String
  accountId : String
deriving DecidableEq

structure GatewayConfig where
  channels : AList (fun _ : String => ChannelEntry) := ∅
  bindings : List ChannelBindingConfig := []

def validateChannelIds (debug : String → String) (cfg : GatewayConfig) : Except String Unit := do
  let check := validateChannelIdPart debug
  cfg.channels.keys.forM fun name =>
    (check "channel" name).mapError fun e =>
      "[[channels.<name>]]: invalid channel key " ++ debug name ++ " — " ++ e
  cfg.channels.entries.forM fun entry =>
    entry.2.accounts.forM fun account =>
      (check "account_id" account.id).mapError fun e =>
        "[[channels." ++ entry.1 ++ ".accounts]] id=" ++ debug account.id ++ ": " ++ e
  cfg.bindings.zipIdx.forM fun (binding, idx) => do
    let at' := "[[bindings]][" ++ toString idx ++ "] "
    (check "channel" binding.channel).mapError fun e =>
      at' ++ "channel=" ++ debug binding.channel ++ ": " ++ e
    (check "account_id" binding.accountId).mapError fun e =>
      at' ++ "account_id=" ++ debug binding.accountId ++ ": " ++ e

structure ChannelConfig extends GatewayConfig where
  debug : String → String
  validated : validateChannelIds debug toGatewayConfig = .ok ()

theorem ChannelConfig.validPart_of_mem {cfg : ChannelConfig} {binding : ChannelBindingConfig}
    (mem : binding ∈ cfg.bindings) : ValidPart binding.channel ∧ ValidPart binding.accountId := by
  obtain ⟨_, -, rest⟩ := bind_eq_ok.mp cfg.validated
  obtain ⟨_, -, rest⟩ := bind_eq_ok.mp rest
  obtain ⟨idx, inRange, at'⟩ := List.getElem_of_mem mem
  have checked := forM_eq_ok.mp rest (binding, idx) (by
    rw [List.mem_zipIdx_iff_getElem?, List.getElem?_eq_some_iff]
    exact ⟨inRange, at'⟩)
  obtain ⟨_, channel, account⟩ := bind_eq_ok.mp checked
  exact ⟨validateChannelIdPart_eq_ok.mp (mapError_eq_ok.mp channel),
    validateChannelIdPart_eq_ok.mp (mapError_eq_ok.mp account)⟩

end Havn.Gateway.Config
