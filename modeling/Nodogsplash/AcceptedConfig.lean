import Nodogsplash.ConfigOrder

/-! # Accepted configurations

What `config_read` and `config_validate` let through, and what the start of the daemon adds
to it. -/

namespace Nodogsplash

/-- A timeout leaves room for two checks: `checkinterval >= (60 * timeout) / 2` is refused. -/
def intervalFits (checkinterval timeout : Int) : Bool :=
  !(decide (timeout > 0) && decide (checkinterval ≥ (toInt32 (60 * timeout)).tdiv 2))

/-- `config_validate`. An interface that is not set is empty. -/
def configValidate (settings : Settings) : Bool :=
  settings.gwInterface ≠ "" && intervalFits settings.checkinterval settings.preauthIdleTimeout &&
    intervalFits settings.checkinterval settings.authIdleTimeout

/-- What `main_loop` finds out about the gateway, and the IP version of the command line. -/
structure Launch where
  gwAddress : String
  gwHttpName : String
  gwHttpNamePort : String
  ip6 : Bool

/-- The configuration the daemon runs with. -/
def Settings.launch (settings : Settings) (launch : Launch) : Config :=
  { settings.toConfig with
    gwAddress := launch.gwAddress
    gwHttpName := launch.gwHttpName
    gwHttpNamePort := launch.gwHttpNamePort
    ip6 := launch.ip6 }

/-- `config_read` and `config_validate` accept a file. -/
structure Accepted (isExecutable : String → Bool) (lines : List (List Char))
    (settings : Settings) : Prop where
  read : configRead isExecutable none configInit lines = some settings
  valid : configValidate settings = true

/-! ## Invariants of reading -/

theorem checked_eq_some {α : Type} {value : Option α} {bad : α → Bool} {set : α → Settings}
    {next : Settings} (stored : checked value bad set = some next) :
    ∃ number, value = some number ∧ bad number = false ∧ next = set number := by
  rcases Option.bind_eq_some_iff.mp stored with ⟨number, read, kept⟩
  split at kept
  · cases kept
  · next good => exact ⟨number, read, by simpa using good, (Option.some.inj kept).symm⟩

theorem configRead_invariant {isExecutable : String → Bool} {Invariant : Settings → Prop}
    (options : ∀ settings opcode arg next, Invariant settings →
      readOption isExecutable settings opcode arg = some next → Invariant next)
    (rules : ∀ settings name rule, Invariant settings → Invariant (settings.addRule name rule))
    {inside : Option RulesetName} {settings final : Settings} {lines : List (List Char)}
    (read : configRead isExecutable inside settings lines = some final)
    (holds : Invariant settings) : Invariant final := by
  induction lines generalizing inside settings with
  | nil =>
      cases read
      exact holds
  | cons line rest induction =>
      cases shape : stripWhitespace line with
      | nil =>
          rw [configRead_blank isExecutable settings rest shape] at read
          exact induction read holds
      | cons first line =>
          cases inside with
          | some name =>
              rw [configRead_inside isExecutable settings rest shape] at read
              split at read
              · exact induction read holds
              · rcases Option.bind_eq_some_iff.mp read with ⟨rule, _, later⟩
                exact induction later (rules settings name rule holds)
          | none =>
              rw [configRead_top isExecutable settings rest shape] at read
              rcases Option.bind_eq_some_iff.mp read with ⟨words, _, read⟩
              split at read
              · rcases Option.bind_eq_some_iff.mp read with ⟨name, _, later⟩
                exact induction later holds
              · rcases Option.bind_eq_some_iff.mp read with ⟨next, stored, later⟩
                exact induction later (options settings _ _ next holds stored)

structure Settings.TimesRead (settings : Settings) : Prop where
  session : 0 ≤ settings.sessionTimeout
  preauthIdle : 0 ≤ settings.preauthIdleTimeout
  authIdle : 0 ≤ settings.authIdleTimeout

theorem Settings.TimesRead.readOption {isExecutable : String → Bool} {settings next : Settings}
    {opcode : Opcode} {arg : List Char} (times : settings.TimesRead)
    (read : readOption isExecutable settings opcode arg = some next) : next.TimesRead := by
  rcases times with ⟨session, preauthIdle, authIdle⟩
  cases opcode with
  | sessionTimeout =>
      rcases checked_eq_some read with ⟨value, _, good, rfl⟩
      exact ⟨by simpa using good, preauthIdle, authIdle⟩
  | preauthIdleTimeout =>
      rcases checked_eq_some read with ⟨value, _, good, rfl⟩
      exact ⟨session, by simpa using good, authIdle⟩
  | authIdleTimeout =>
      rcases checked_eq_some read with ⟨value, _, good, rfl⟩
      exact ⟨session, preauthIdle, by simpa using good⟩
  | emptyRuleSetPolicy =>
      rcases Option.map_eq_some_iff.mp read with ⟨directive, _, rfl⟩
      exact ⟨session, preauthIdle, authIdle⟩
  | macMechanism =>
      rcases Option.map_eq_some_iff.mp read with ⟨mechanism, _, rfl⟩
      exact ⟨session, preauthIdle, authIdle⟩
  | trustedMACList =>
      rcases Option.map_eq_some_iff.mp read with ⟨config, parsed, rfl⟩
      rw [parseTrustedMacList_eq] at parsed
      rcases Option.map_eq_some_iff.mp parsed with ⟨list, _, rfl⟩
      exact ⟨session, preauthIdle, authIdle⟩
  | blockedMACList =>
      rcases Option.map_eq_some_iff.mp read with ⟨config, parsed, rfl⟩
      rw [parseBlockedMacList_eq] at parsed
      rcases Option.map_eq_some_iff.mp parsed with ⟨list, _, rfl⟩
      exact ⟨session, preauthIdle, authIdle⟩
  | allowedMACList =>
      rcases Option.map_eq_some_iff.mp read with ⟨config, parsed, rfl⟩
      rw [parseAllowedMacList_eq] at parsed
      rcases Option.map_eq_some_iff.mp parsed with ⟨list, _, rfl⟩
      exact ⟨session, preauthIdle, authIdle⟩
  | badOption => cases read
  | daemon | gatewayName | gatewayDomainName | gatewayInterface | gatewayIPRange | gatewayIP
  | gatewayAddress | webRoot | splashPage | statusPage | redirectURL | ndsctlSocket
  | firewallRuleSet | firewallRule | stateFile =>
      cases read
      exact ⟨session, preauthIdle, authIdle⟩
  | sessionTimeoutBlock | sessionLimitBlock | debugLevel | maxClients | gatewayPort | binAuth
  | preAuth | setMSS | mssValue | trafficControl | downloadLimit | uploadLimit | uploadIFB
  | fwMarkAuthenticated | fwMarkBlocked | fwMarkTrusted | checkInterval | syslogFacility =>
      rcases checked_eq_some read with ⟨value, _, _, rfl⟩
      exact ⟨session, preauthIdle, authIdle⟩

theorem Accepted.timesRead {isExecutable : String → Bool} {lines : List (List Char)}
    {settings : Settings} (accepted : Accepted isExecutable lines settings) :
    settings.TimesRead :=
  configRead_invariant (fun _ _ _ _ times read => times.readOption read)
    (fun _ _ _ times => ⟨times.session, times.preauthIdle, times.authIdle⟩) accepted.read
    ⟨by decide, by decide, by decide⟩

theorem exists_accepted (isExecutable : String → Bool) (lines : List (List Char))
    (test : Settings → Bool)
    (passes : (configRead isExecutable none configInit lines).any
      (fun settings => configValidate settings && test settings) = true) :
    ∃ settings, Accepted isExecutable lines settings ∧ test settings = true := by
  rcases Option.any_eq_true _ _ |>.mp passes with ⟨settings, read, tested⟩
  rw [Bool.and_eq_true] at tested
  exact ⟨settings, ⟨read, tested.1⟩, tested.2⟩

/-- A file that names the interface and nothing else. -/
def interfaceLine : List Char := "GatewayInterface br-lan\n".toList

def defaultLaunch : Launch := ⟨"192.168.42.1:2050", "192.168.42.1:2050", "192.168.42.1:2050", false⟩

end Nodogsplash
