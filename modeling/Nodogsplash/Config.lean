import Nodogsplash.Text

/-! # The configuration

`s_config` as the daemon's core reads it after `config_read` and
`config_validate`, with the MAC lists that ndsctl edits while it runs. -/

namespace Nodogsplash

/-- `MAC_ALLOW` and `MAC_BLOCK`. -/
inductive MacMechanism
  | allow
  | block
  deriving DecidableEq

/-- `t_firewall_target`. -/
inductive FirewallTarget
  | drop
  | reject
  | accept
  | log
  | ulog
  deriving DecidableEq

/-- `t_firewall_rule`. -/
structure FirewallRule where
  target : FirewallTarget
  protocol : Option String
  port : Option String
  mask : Option String
  ipset : Option String
  deriving DecidableEq

inductive EmptyRulesetPolicy
  | accept
  | reject
  | passthrough
  deriving DecidableEq

/-- The rulesets that `config_init` creates; no other is accepted. -/
inductive RulesetName
  | trustedUsers
  | trustedUsersToRouter
  | usersToRouter
  | authenticatedUsers
  | preauthenticatedUsers
  deriving DecidableEq

/-- `t_firewall_ruleset`. -/
structure FirewallRuleset where
  emptyrulesetpolicy : EmptyRulesetPolicy
  rules : List FirewallRule

/-- `s_config`. -/
structure Config where
  maxclients : Int
  gwName : String
  gwInterface : String
  gwIprange : String
  gwAddress : String
  gwHttpName : String
  gwHttpNamePort : String
  gwPort : Nat
  splashpage : String
  redirectURL : Option String
  authdir : String
  denydir : String
  sessionTimeout : Int
  sessionTimeoutBlock : Int
  sessionLimitBlock : Int
  preauthIdleTimeout : Int
  authIdleTimeout : Int
  setMss : Bool
  mssValue : Int
  trafficControl : Bool
  downloadLimit : Int
  uploadLimit : Int
  uploadIfb : Int
  macmechanism : MacMechanism
  rulesets : RulesetName → FirewallRuleset
  trustedmaclist : List String
  blockedmaclist : List String
  allowedmaclist : List String
  fwMarkAuthenticated : BitVec 32
  fwMarkBlocked : BitVec 32
  fwMarkTrusted : BitVec 32
  ip6 : Bool
  binauth : Option String

namespace Config

/-- `get_ruleset_list`. -/
def getRulesetList (config : Config) (name : RulesetName) : List FirewallRule :=
  (config.rulesets name).rules

/-- `is_empty_ruleset`. -/
def isEmptyRuleset (config : Config) (name : RulesetName) : Bool :=
  (config.getRulesetList name).isEmpty

/-- `get_empty_ruleset_policy`. -/
def getEmptyRulesetPolicy (config : Config) (name : RulesetName) : EmptyRulesetPolicy :=
  (config.rulesets name).emptyrulesetpolicy

end Config

/-! ## MAC lists

The three lists share their code up to the field, the MAC mechanism that
enables the list and the code returned for an invalid address. -/

/-- The body of the `add_to_*_mac_list` functions. -/
def addToMacList (invalid : Int) (enabled : Bool) (list : List String) (possiblemac : String) :
    Int × List String :=
  if !checkMacFormat possiblemac then (invalid, list)
  else if !enabled then (-1, list)
  else
    let mac := scanMac possiblemac
    if list.any (sameIgnoringCase · mac) then (1, list) else (0, mac :: list)

/-- The body of the `remove_from_*_mac_list` functions. -/
def removeFromMacList (enabled : Bool) (list : List String) (possiblemac : String) :
    Int × List String :=
  if !checkMacFormat possiblemac then (-1, list)
  else if !enabled then (-1, list)
  else
    let mac := scanMac possiblemac
    if list.any (sameIgnoringCase · mac) then (0, list.eraseP (sameIgnoringCase · mac))
    else (-1, list)

theorem addToMacList_cases (invalid : Int) (invalidNonzero : invalid ≠ 0) (enabled : Bool)
    (list : List String) (possiblemac : String) :
    (addToMacList invalid enabled list possiblemac = (0, scanMac possiblemac :: list) ∧
      enabled = true ∧ checkMacFormat possiblemac = true ∧
      list.any (sameIgnoringCase · (scanMac possiblemac)) = false) ∨
    ((addToMacList invalid enabled list possiblemac).1 ≠ 0 ∧
      (addToMacList invalid enabled list possiblemac).2 = list) := by
  cases format : checkMacFormat possiblemac with
  | false =>
      right
      simp [addToMacList, format, invalidNonzero]
  | true =>
      cases enabled with
      | false =>
          right
          simp [addToMacList, format]
      | true =>
          cases present : list.any (sameIgnoringCase · (scanMac possiblemac)) with
          | true =>
              right
              simp only [addToMacList, format, present]
              simp
          | false =>
              left
              simp only [addToMacList, format, present]
              simp

theorem removeFromMacList_cases (enabled : Bool) (list : List String) (possiblemac : String) :
    (removeFromMacList enabled list possiblemac =
        (0, list.eraseP (sameIgnoringCase · (scanMac possiblemac))) ∧
      enabled = true ∧ checkMacFormat possiblemac = true ∧
      list.any (sameIgnoringCase · (scanMac possiblemac)) = true) ∨
    ((removeFromMacList enabled list possiblemac).1 ≠ 0 ∧
      (removeFromMacList enabled list possiblemac).2 = list) := by
  cases format : checkMacFormat possiblemac with
  | false =>
      right
      simp [removeFromMacList, format]
  | true =>
      cases enabled with
      | false =>
          right
          simp [removeFromMacList, format]
      | true =>
          cases present : list.any (sameIgnoringCase · (scanMac possiblemac)) with
          | false =>
              right
              simp only [removeFromMacList, format, present]
              simp
          | true =>
              left
              simp only [removeFromMacList, format, present]
              simp

namespace Config

/-- `add_to_trusted_mac_list`. -/
def addToTrustedMacList (config : Config) (possiblemac : String) : Int × Config :=
  let (rc, list) := addToMacList 1 true config.trustedmaclist possiblemac
  (rc, { config with trustedmaclist := list })

/-- `remove_from_trusted_mac_list`. -/
def removeFromTrustedMacList (config : Config) (possiblemac : String) : Int × Config :=
  let (rc, list) := removeFromMacList true config.trustedmaclist possiblemac
  (rc, { config with trustedmaclist := list })

/-- `add_to_blocked_mac_list`. -/
def addToBlockedMacList (config : Config) (possiblemac : String) : Int × Config :=
  let (rc, list) :=
    addToMacList (-1) (config.macmechanism = .block) config.blockedmaclist possiblemac
  (rc, { config with blockedmaclist := list })

/-- `remove_from_blocked_mac_list`. -/
def removeFromBlockedMacList (config : Config) (possiblemac : String) : Int × Config :=
  let (rc, list) :=
    removeFromMacList (config.macmechanism = .block) config.blockedmaclist possiblemac
  (rc, { config with blockedmaclist := list })

/-- `add_to_allowed_mac_list`. -/
def addToAllowedMacList (config : Config) (possiblemac : String) : Int × Config :=
  let (rc, list) :=
    addToMacList (-1) (config.macmechanism = .allow) config.allowedmaclist possiblemac
  (rc, { config with allowedmaclist := list })

/-- `remove_from_allowed_mac_list`. -/
def removeFromAllowedMacList (config : Config) (possiblemac : String) : Int × Config :=
  let (rc, list) :=
    removeFromMacList (config.macmechanism = .allow) config.allowedmaclist possiblemac
  (rc, { config with allowedmaclist := list })

/-- `is_blocked_mac`: `strcmp`, where the list operations ignore case. -/
def isBlockedMac (config : Config) (mac : String) : Bool :=
  config.macmechanism ≠ .allow && config.blockedmaclist.contains mac

/-- `is_allowed_mac`. -/
def isAllowedMac (config : Config) (mac : String) : Bool :=
  config.macmechanism ≠ .block && config.allowedmaclist.contains mac

/-- `is_trusted_mac`. -/
def isTrustedMac (config : Config) (mac : String) : Bool :=
  config.trustedmaclist.contains mac

end Config

end Nodogsplash
