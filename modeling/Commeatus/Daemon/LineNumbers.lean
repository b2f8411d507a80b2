import Commeatus.Daemon.ConfigFile

/-!
Line numbers tell errors only.

What a line of a configuration does to the accumulators, and whether it is
accepted, does not depend on where the line stands.
-/

namespace Commeatus.Daemon

open Commeatus.Lib Commeatus.Core Commeatus.Dns Commeatus.Compat

variable {η : Type} {platform : Platform η} {value : Str} {fields : List Str}
    {s : ParseState η} (line line' : Nat)

/-! ### Values -/

theorem endpointId_anywhere :
    (EndpointId.new value line).toOption = (EndpointId.new value line').toOption := by
  unfold EndpointId.new
  split <;> rfl

theorem parseAction_anywhere :
    (parseAction value line).toOption = (parseAction value line').toOption := by
  unfold parseAction
  split
  · rfl
  split
  · rfl
  · exact toOption_bind_congr (toOption_okOr _ _) fun rest =>
      toOption_bind_congr (endpointId_anywhere line line') fun _ => rfl

theorem normalizeDomain_anywhere :
    (normalizeDomain value line).toOption = (normalizeDomain value line').toOption := by
  unfold normalizeDomain
  dsimp only
  split <;> rfl

theorem parsePort_anywhere : (parsePort value line).toOption = (parsePort value line').toOption :=
  toOption_bind_congr (toOption_okOr _ _) fun _ =>
    toOption_bind_congr (toOption_refuse _ _) fun _ => rfl

theorem parseCidr_anywhere :
    (parseCidr value line).toOption = (parseCidr value line').toOption := by
  unfold parseCidr
  split <;> rfl

theorem parseTransport_anywhere :
    (parseTransport value line).toOption = (parseTransport value line').toOption := by
  unfold parseTransport
  split
  · rfl
  split <;> rfl

theorem parseMatcher_anywhere :
    (parseMatcher fields line).toOption = (parseMatcher fields line').toOption := by
  unfold parseMatcher
  dsimp only
  split
  · rfl
  split
  · exact toOption_bind_congr (normalizeDomain_anywhere line line') fun _ => rfl
  split
  · exact toOption_bind_congr (normalizeDomain_anywhere line line') fun _ => rfl
  split
  · exact toOption_bind_congr (toOption_okOr _ _) fun _ => rfl
  split
  · exact toOption_bind_congr (parseCidr_anywhere line line') fun _ => rfl
  split
  · exact toOption_bind_congr (parsePort_anywhere line line') fun _ => rfl
  split
  · exact toOption_bind_congr (parseTransport_anywhere line line') fun _ => rfl
  · rfl

theorem parseRule_anywhere (id : RuleId) :
    (parseRule fields line id).toOption = (parseRule fields line' id).toOption :=
  toOption_bind_congr (toOption_refuse _ _) fun _ =>
      toOption_bind_congr (parseAction_anywhere line line') fun _ =>
    toOption_bind_congr (parseMatcher_anywhere line line') fun _ => rfl

theorem parseProxyAddress_anywhere :
    (parseProxyAddress value line).toOption = (parseProxyAddress value line').toOption :=
  toOption_bind_congr (toOption_okOr _ _) fun _ =>
    toOption_bind_congr (toOption_refuse _ _) fun _ => rfl

theorem parseTlsTransportRaw_anywhere (serverName : Str) :
    (parseTlsTransportRaw platform value serverName line).toOption =
      (parseTlsTransportRaw platform value serverName line').toOption := by
  refine toOption_bind_congr (parseProxyAddress_anywhere line line') fun address => ?_
  split <;> rfl

theorem newVerifier_anywhere :
    (newVerifier platform value line).toOption = (newVerifier platform value line').toOption :=
  toOption_bind_congr (toOption_refuse _ _) fun _ => rfl

theorem parseEndpoint_anywhere (id : EndpointId) :
    (parseEndpoint platform id fields line).toOption =
      (parseEndpoint platform id fields line').toOption := by
  unfold parseEndpoint
  split
  · split
    · exact toOption_bind_congr (parseProxyAddress_anywhere line line') fun _ => rfl
    · rfl
  · split
    · exact toOption_bind_congr (parseProxyAddress_anywhere line line') fun _ => rfl
    · rfl
  · split
    · exact toOption_bind_congr (parseTlsTransportRaw_anywhere line line' _) fun _ => rfl
    · rfl
  · split
    · exact toOption_bind_congr (newVerifier_anywhere line line') fun _ =>
        toOption_bind_congr (parseTlsTransportRaw_anywhere line line' _) fun _ => rfl
    · rfl
  · rfl

theorem readBoundedAsset_anywhere (maxBytes : Nat) (kind : String) :
    (readBoundedAsset platform value maxBytes kind line).toOption =
      (readBoundedAsset platform value maxBytes kind line').toOption := by
  unfold readBoundedAsset
  dsimp only
  split
  · refine toOption_bind_congr rfl fun _ => toOption_bind_congr (toOption_refuse _ _) fun _ => ?_
    split <;> rfl
  · rfl

theorem loadBlocklist_anywhere : (loadBlocklist platform value line).toOption =
    (loadBlocklist platform value line').toOption := by
  refine toOption_bind_congr (readBoundedAsset_anywhere line line' _ _) fun text => ?_
  split <;> rfl

theorem loadHosts_anywhere :
    (loadHosts platform value line).toOption = (loadHosts platform value line').toOption := by
  refine toOption_bind_congr (readBoundedAsset_anywhere line line' _ _) fun text => ?_
  split <;> rfl

theorem dotResolver_anywhere (address : ScopedAddr) :
    (dotResolver platform address value line).toOption =
      (dotResolver platform address value line').toOption := by
  unfold dotResolver
  split <;> rfl

/-! ### Directives -/

theorem versionDirective_anywhere :
    (versionDirective fields line s).toOption = (versionDirective fields line' s).toOption :=
  toOption_bind_congr (toOption_refuse _ _) fun _ =>
      toOption_bind_congr (toOption_refuse _ _) fun _ =>
    toOption_bind_congr (toOption_refuse _ _) fun _ => rfl

theorem parseSwitch_anywhere :
    (parseSwitch value line).toOption = (parseSwitch value line').toOption := by
  unfold parseSwitch
  split
  · rfl
  split <;> rfl

theorem allowPublicListenDirective_anywhere :
    (allowPublicListenDirective fields line s).toOption =
      (allowPublicListenDirective fields line' s).toOption :=
  toOption_bind_congr (toOption_refuse _ _) fun _ =>
      toOption_bind_congr (toOption_refuse _ _) fun _ =>
    toOption_bind_congr (parseSwitch_anywhere line line') fun _ => rfl

theorem parseListenerProtocol_anywhere :
    (parseListenerProtocol value line).toOption = (parseListenerProtocol value line').toOption := by
  unfold parseListenerProtocol
  split
  · rfl
  split
  · rfl
  split
  · rfl
  split <;> rfl

theorem listenDirective_anywhere :
    (listenDirective fields line s).toOption = (listenDirective fields line' s).toOption :=
  toOption_bind_congr (toOption_refuse _ _) fun _ =>
      toOption_bind_congr (toOption_refuse _ _) fun _ =>
    toOption_bind_congr (parseListenerProtocol_anywhere line line') fun _ =>
        toOption_bind_congr (toOption_okOr _ _) fun _ =>
      toOption_bind_congr (toOption_refuse _ _) fun _ =>
        toOption_bind_congr (toOption_refuse _ _) fun _ => rfl

theorem resolverDirective_anywhere :
    (resolverDirective platform fields line s).toOption =
      (resolverDirective platform fields line' s).toOption := by
  refine toOption_bind_congr (toOption_refuse _ _) fun _ => ?_
  dsimp only
  split
  · split
    · exact toOption_bind_congr (toOption_refuse _ _) fun _ => rfl
    · rfl
  · split
    · exact toOption_bind_congr (toOption_okOr _ _) fun _ =>
          toOption_bind_congr (toOption_refuse _ _) fun _ =>
        toOption_bind_congr (toOption_refuse _ _) fun _ =>
          toOption_bind_congr (dotResolver_anywhere line line' _) fun _ => rfl
    · rfl
  · rfl

theorem endpointDirective_anywhere :
    (endpointDirective platform fields line s).toOption =
      (endpointDirective platform fields line' s).toOption :=
  toOption_bind_congr (toOption_refuse _ _) fun _ =>
      toOption_bind_congr (toOption_okOr _ _) fun _ =>
    toOption_bind_congr (endpointId_anywhere line line') fun _ =>
        toOption_bind_congr (toOption_refuse _ _) fun _ =>
      toOption_bind_congr (parseEndpoint_anywhere line line' _) fun _ => rfl

theorem defaultDirective_anywhere :
    (defaultDirective fields line s).toOption = (defaultDirective fields line' s).toOption :=
  toOption_bind_congr (toOption_refuse _ _) fun _ =>
      toOption_bind_congr (toOption_refuse _ _) fun _ =>
    toOption_bind_congr (parseAction_anywhere line line') fun _ => rfl

theorem blocklistDirective_anywhere (root : Str) :
    (blocklistDirective platform root fields line s).toOption =
      (blocklistDirective platform root fields line' s).toOption :=
  toOption_bind_congr (toOption_refuse _ _) fun _ =>
      toOption_bind_congr (toOption_refuse _ _) fun _ =>
    toOption_bind_congr (toOption_refuse _ _) fun _ =>
        toOption_bind_congr (toOption_refuse _ _) fun _ =>
      toOption_bind_congr (loadBlocklist_anywhere line line') fun _ => rfl

theorem hostsDirective_anywhere (root : Str) :
    (hostsDirective platform root fields line s).toOption =
      (hostsDirective platform root fields line' s).toOption :=
  toOption_bind_congr (toOption_refuse _ _) fun _ =>
      toOption_bind_congr (toOption_refuse _ _) fun _ =>
    toOption_bind_congr (toOption_refuse _ _) fun _ =>
      toOption_bind_congr (loadHosts_anywhere line line') fun _ => rfl

theorem ruleDirective_anywhere :
    (ruleDirective fields line s).toOption = (ruleDirective fields line' s).toOption :=
  toOption_bind_congr (toOption_refuse _ _) fun _ =>
    toOption_bind_congr (parseRule_anywhere line line' _) fun _ => rfl

/-- A directive is accepted or not wherever it stands, and with the same effect. -/
theorem directive_anywhere (root : Str) (word : Keyword) :
    (word.directive platform root fields line s).toOption =
      (word.directive platform root fields line' s).toOption := by
  cases word with
  | version => exact versionDirective_anywhere line line'
  | allowPublicListen => exact allowPublicListenDirective_anywhere line line'
  | listen => exact listenDirective_anywhere line line'
  | resolver => exact resolverDirective_anywhere line line'
  | endpoint => exact endpointDirective_anywhere line line'
  | default => exact defaultDirective_anywhere line line'
  | blocklist => exact blocklistDirective_anywhere line line' root
  | hosts => exact hostsDirective_anywhere line line' root
  | rule => exact ruleDirective_anywhere line line'

end Commeatus.Daemon
