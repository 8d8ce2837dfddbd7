import Mathlib.Data.List.DropRight
import Mathlib.Logic.Function.Basic
import Nodogsplash.MacLists
import Nodogsplash.Foundation.Rearrangement

/-! # Reading the configuration file

`config_read` of `conf.c`. A file is the list of its lines as `fgets` reads them;
nothing is returned where the program exits. -/

namespace Nodogsplash

/-! ## Words and numbers -/

/-- `isblank`. -/
def isBlankChar (char : Char) : Bool := char = ' ' || char = '\t'

def stripComment (previous : Option Char) : List Char → List Char
  | [] => []
  | char :: rest =>
      if char = '#' ∧ previous ≠ some '\\' then [] else char :: stripComment (some char) rest

/-- `_strip_whitespace`. -/
def stripWhitespace (line : List Char) : List Char :=
  ((stripComment none line).dropWhile isSpace).rdropWhile isSpace

example : stripWhitespace "  GatewayName a\\#b # c\n".toList = "GatewayName a\\#b".toList := by
  decide

inductive NumberFormat
  | u
  | x
  | i

/-- The base of a number and its digits. A mark `0x` is read as its zero. -/
def NumberFormat.base : NumberFormat → List Char → Nat × List Char
  | .u, chars => (10, chars)
  | format, '0' :: mark :: rest =>
      if mark = 'x' ∨ mark = 'X' then (16, '0' :: rest)
      else (match format with | .i => 8 | _ => 16, '0' :: mark :: rest)
  | .i, chars => (if chars.head? = some '0' then 8 else 10, chars)
  | .x, chars => (16, chars)

/-- The number that a conversion reads, before it is stored. -/
def scanNumber (format : NumberFormat) (chars : List Char) : Option Int :=
  let chars := chars.dropWhile isSpace
  let signed := chars.head? = some '-' ∨ chars.head? = some '+'
  let (base, digits) := format.base (if signed then chars.tail else chars)
  let values := (digits.map fun char => (hexValue char).filter (· < base)).takeWhile Option.isSome
  if values.isEmpty then none
  else
    let number : Nat := values.foldl (fun number value => number * base + value.getD 0) 0
    some (if chars.head? = some '-' then -number else number)

/-- `strtoul` keeps a number in the range of `unsigned long`, of which the low bits
are stored. -/
def storeUnsigned (number : Int) : BitVec 32 :=
  if number.natAbs < 2 ^ 64 then BitVec.ofInt 32 number else BitVec.allOnes 32

/-- `sscanf` with one `%d`. -/
def scanInt (arg : List Char) : Option Int :=
  match scanDecimal arg with
  | .value number _ => some number
  | _ => none

/-- `sscanf` with one `%u`. -/
def scanUnsigned (arg : List Char) : Option (BitVec 32) := (scanNumber .u arg).map storeUnsigned

/-- `sscanf` with one `%x`. -/
def scanHex (arg : List Char) : Option (BitVec 32) := (scanNumber .x arg).map storeUnsigned

/-- `sscanf` with one `%i`. -/
def scanAnyInt (arg : List Char) : Option Int := (scanNumber .i arg).map storeInt

example : scanHex "0x30000".toList = some 0x30000 := by decide
example : scanAnyInt "0x1e".toList = some 30 := by decide
example : scanUnsigned "-1".toList = some 4294967295 := by decide

/-- `parse_boolean`; nothing stands for -1. -/
def parseBoolean (line : List Char) : Option Bool :=
  let line := String.ofList line
  if sameIgnoringCase line "no" || sameIgnoringCase line "false" || line = "0" then some false
  else if sameIgnoringCase line "yes" || sameIgnoringCase line "true" || line = "1" then some true
  else none

/-! ## Options -/

/-- `OpCodes`. -/
inductive Opcode
  | badOption
  | sessionTimeout
  | sessionTimeoutBlock
  | sessionLimitBlock
  | daemon
  | debugLevel
  | maxClients
  | gatewayName
  | gatewayDomainName
  | gatewayInterface
  | gatewayIPRange
  | gatewayIP
  | gatewayAddress
  | gatewayPort
  | webRoot
  | splashPage
  | statusPage
  | redirectURL
  | preauthIdleTimeout
  | authIdleTimeout
  | checkInterval
  | setMSS
  | mssValue
  | trafficControl
  | downloadLimit
  | uploadLimit
  | uploadIFB
  | syslogFacility
  | ndsctlSocket
  | firewallRuleSet
  | firewallRule
  | emptyRuleSetPolicy
  | trustedMACList
  | blockedMACList
  | allowedMACList
  | macMechanism
  | fwMarkAuthenticated
  | fwMarkTrusted
  | fwMarkBlocked
  | binAuth
  | preAuth
  | stateFile
  deriving DecidableEq

/-- `keywords`. -/
def keywords : List (String × Opcode) :=
  [("sessiontimeout", .sessionTimeout),
    ("sessiontimeoutblock", .sessionTimeoutBlock),
    ("sessionlimitblock", .sessionLimitBlock),
    ("daemon", .daemon),
    ("debuglevel", .debugLevel),
    ("maxclients", .maxClients),
    ("gatewayname", .gatewayName),
    ("gatewaydomainname", .gatewayDomainName),
    ("gatewayinterface", .gatewayInterface),
    ("gatewayiprange", .gatewayIPRange),
    ("gatewayip", .gatewayIP),
    ("gatewayaddress", .gatewayAddress),
    ("gatewayport", .gatewayPort),
    ("webroot", .webRoot),
    ("splashpage", .splashPage),
    ("statuspage", .statusPage),
    ("redirectURL", .redirectURL),
    ("preauthidletimeout", .preauthIdleTimeout),
    ("authidletimeout", .authIdleTimeout),
    ("checkinterval", .checkInterval),
    ("setmss", .setMSS),
    ("mssvalue", .mssValue),
    ("trafficcontrol", .trafficControl),
    ("downloadlimit", .downloadLimit),
    ("uploadlimit", .uploadLimit),
    ("ifb", .uploadIFB),
    ("syslogfacility", .syslogFacility),
    ("ndsctlsocket", .ndsctlSocket),
    ("firewallruleset", .firewallRuleSet),
    ("firewallrule", .firewallRule),
    ("emptyrulesetpolicy", .emptyRuleSetPolicy),
    ("trustedmaclist", .trustedMACList),
    ("blockedmaclist", .blockedMACList),
    ("allowedmaclist", .allowedMACList),
    ("MACmechanism", .macMechanism),
    ("fw_mark_authenticated", .fwMarkAuthenticated),
    ("fw_mark_trusted", .fwMarkTrusted),
    ("fw_mark_blocked", .fwMarkBlocked),
    ("binauth", .binAuth),
    ("preauth", .preAuth),
    ("statefile", .stateFile)]

/-- `config_parse_opcode`. -/
def configParseOpcode (word : List Char) : Opcode :=
  ((keywords.find? fun keyword => sameIgnoringCase (String.ofList word) keyword.1).map
    Prod.snd).getD .badOption

/-! ## Firewall rules -/

/-- `TO_NEXT_WORD`: the word, what follows it, and whether the line ended. -/
def toNextWord (line : List Char) : List Char × List Char × Bool :=
  let rest := line.dropWhile fun char => !isBlankChar char
  (line.takeWhile fun char => !isBlankChar char, (rest.drop 1).dropWhile isBlankChar, rest.isEmpty)

/-- `get_ruleset` among those that `config_init` creates. -/
def getRuleset (name : List Char) : Option RulesetName :=
  if name = "trusted-users".toList then some .trustedUsers
  else if name = "trusted-users-to-router".toList then some .trustedUsersToRouter
  else if name = "users-to-router".toList then some .usersToRouter
  else if name = "authenticated-users".toList then some .authenticatedUsers
  else if name = "preauthenticated-users".toList then some .preauthenticatedUsers
  else none

def parseTarget (token : List Char) : Option FirewallTarget :=
  if token = "block".toList then some .reject
  else if token = "drop".toList then some .drop
  else if token = "allow".toList then some .accept
  else if token = "log".toList then some .log
  else if token = "ulog".toList then some .ulog
  else none

/-- An optional part that begins with `keyword` and has an argument. -/
def optionalArgument (keyword : String) (leftover : List Char) (finished : Bool) :
    Option (List Char) × List Char × Bool :=
  if keyword.toList.isPrefixOf leftover then
    let (_, leftover, ended) := toNextWord leftover
    let (argument, leftover, endedAgain) := toNextWord leftover
    (some argument, leftover, finished || ended || endedAgain)
  else (none, leftover, finished)

/-- `_parse_firewall_rule`. -/
def parseFirewallRule (leftover : List Char) : Option FirewallRule := do
  let (token, leftover, finished) := toNextWord (leftover.map Char.toLower)
  let target ← parseTarget token
  let hasProtocol := ["tcp", "udp", "all", "icmp"].any fun name => name.toList.isPrefixOf leftover
  let (protocol, leftover, finished) :=
    if hasProtocol then
      let (protocol, leftover, ended) := toNextWord leftover
      (some protocol, leftover, finished || ended)
    else (none, leftover, finished)
  let (port, leftover, finished) := optionalArgument "port" leftover finished
  if port.isSome && !(protocol.any fun name =>
      "tcp".toList.isPrefixOf name || "udp".toList.isPrefixOf name) then none
  if port.any fun digits => digits.any fun char => !(char.isDigit || char = ':') then none
  let (ipset, leftover, finished) := optionalArgument "ipset" leftover finished
  let mask ←
    if finished then some "0.0.0.0/0".toList
    else
      let (other, leftover, ended) := toNextWord leftover
      if other ≠ "to".toList || ended then none
      else
        let (mask, _, _) := toNextWord leftover
        if mask.any fun char => !(char.isDigit || char = '.' || char = '/') then none
        else some mask
  return {
    target := target
    protocol := protocol.map String.ofList
    port := port.map String.ofList
    mask := some (String.ofList mask)
    ipset := ipset.map String.ofList }

example : parseFirewallRule "allow tcp port 443 to 10.0.0.0/8".toList =
    some ⟨.accept, some "tcp", some "443", some "10.0.0.0/8", none⟩ := by decide
example : parseFirewallRule "allow port 53".toList = none := by decide

/-! ## Settings -/

/-- `s_config` while the file is read: what the daemon's core reads, and what only
other parts of the program do. The texts that are still `NULL` are empty or none. -/
structure Settings extends Config where
  daemon : Option Bool
  debuglevel : Int
  gwDomain : Option String
  gwIp : Option String
  preauth : Option String
  webroot : String
  statuspage : String
  checkinterval : Int
  syslogFacility : Int
  ndsctlSock : String
  statefile : String

/-- `config_init`. -/
def configInit : Settings where
  toConfig :=
    { defaultConfig with
      gwInterface := "", gwAddress := "", gwHttpName := "", gwHttpNamePort := "" }
  daemon := none
  debuglevel := 1
  gwDomain := none
  gwIp := none
  preauth := none
  webroot := "/etc/nodogsplash/htdocs"
  statuspage := "status.html"
  checkinterval := 30
  syslogFacility := 24
  ndsctlSock := "/tmp/ndsctl.sock"
  statefile := "/tmp/nds.state"

/-- An argument that is read and checked by itself before it is stored. -/
def checked {α : Type} (value : Option α) (bad : α → Bool) (set : α → Settings) :
    Option Settings :=
  value.bind fun value => if bad value then none else some (set value)

def rulesetWord (arg : List Char) : Option RulesetName × List Char :=
  let arg := arg.dropWhile isBlankChar
  (getRuleset (arg.takeWhile fun char => !isBlankChar char),
    arg.dropWhile fun char => !isBlankChar char)

/-- The policies of `parse_empty_ruleset_policy`. -/
def parsePolicy (word : List Char) : Option EmptyRulesetPolicy :=
  let word := String.ofList word
  if sameIgnoringCase word "passthrough" then some .passthrough
  else if sameIgnoringCase word "allow" then some .accept
  else if sameIgnoringCase word "block" then some .reject
  else none

/-- The directive of an `EmptyRuleSetPolicy` line. -/
def parseEmptyRulesetPolicy (arg : List Char) : Option (RulesetName × EmptyRulesetPolicy) := do
  let (ruleset, rest) := rulesetWord arg
  let ruleset ← ruleset
  let policy ← parsePolicy ((rest.dropWhile isBlankChar).takeWhile fun char => !isBlankChar char)
  return (ruleset, policy)

def parseMacMechanism (arg : List Char) : Option MacMechanism :=
  if sameIgnoringCase "allow" (String.ofList arg) then some .allow
  else if sameIgnoringCase "block" (String.ofList arg) then some .block
  else none

namespace Settings

def setPolicy (settings : Settings) (name : RulesetName) (policy : EmptyRulesetPolicy) :
    Settings :=
  { settings with
    rulesets := Function.update settings.rulesets name
      { settings.rulesets name with emptyrulesetpolicy := policy } }

def addRule (settings : Settings) (name : RulesetName) (rule : FirewallRule) : Settings :=
  { settings with
    rulesets := Function.update settings.rulesets name
      { settings.rulesets name with rules := (settings.rulesets name).rules ++ [rule] } }

end Settings

section

variable (isExecutable : String → Bool)

/-- The `switch` of `config_read`, but for `FirewallRuleSet`. `isExecutable` is what
`stat` finds. -/
def readOption (settings : Settings) (opcode : Opcode) (arg : List Char) : Option Settings :=
  let text := String.ofList arg
  match opcode with
  | .sessionTimeout =>
      checked (scanInt arg) (· < 0) fun value => { settings with sessionTimeout := value }
  | .sessionTimeoutBlock =>
      checked (scanUnsigned arg) (fun _ => false) fun value =>
        { settings with sessionTimeoutBlock := value.toInt }
  | .sessionLimitBlock =>
      -- an argument that is no number leaves the value as it is
      checked (if arg.all isSpace then none else some (scanUnsigned arg)) (fun _ => false)
        fun value => { settings with
          sessionLimitBlock := (value.map BitVec.toInt).getD settings.sessionLimitBlock }
  | .daemon => some { settings with daemon := settings.daemon <|> parseBoolean arg }
  | .debugLevel =>
      checked (scanInt arg) (· < 0) fun value => { settings with debuglevel := min value 3 }
  | .maxClients => checked (scanInt arg) (· < 1) fun value => { settings with maxclients := value }
  | .gatewayName => some { settings with gwName := text }
  | .gatewayDomainName => some { settings with gwDomain := some text }
  | .gatewayInterface => some { settings with gwInterface := text }
  | .gatewayIPRange => some { settings with gwIprange := text }
  | .gatewayAddress => some { settings with gwIp := some text }
  | .gatewayIP => some { settings with gwIp := some text }
  | .gatewayPort =>
      checked (scanUnsigned arg) (fun _ => false) fun value =>
        { settings with gwPort := value.toNat }
  | .binAuth =>
      checked (some text) (!isExecutable ·) fun value => { settings with binauth := some value }
  | .preAuth =>
      checked (some text) (!isExecutable ·) fun value => { settings with preauth := some value }
  | .emptyRuleSetPolicy =>
      (parseEmptyRulesetPolicy arg).map fun directive =>
        settings.setPolicy directive.1 directive.2
  | .trustedMACList =>
      (settings.parseTrustedMacList text).map fun config => { settings with toConfig := config }
  | .blockedMACList =>
      (settings.parseBlockedMacList text).map fun config => { settings with toConfig := config }
  | .allowedMACList =>
      (settings.parseAllowedMacList text).map fun config => { settings with toConfig := config }
  | .macMechanism =>
      (parseMacMechanism arg).map fun mechanism => { settings with macmechanism := mechanism }
  | .webRoot =>
      some { settings with webroot := String.ofList (arg.rdropWhile fun char => char = '/') }
  | .splashPage => some { settings with splashpage := text }
  | .statusPage => some { settings with statuspage := text }
  | .redirectURL => some { settings with redirectURL := some text }
  | .authIdleTimeout =>
      checked (scanInt arg) (· < 0) fun value => { settings with authIdleTimeout := value }
  | .preauthIdleTimeout =>
      checked (scanInt arg) (· < 0) fun value => { settings with preauthIdleTimeout := value }
  | .ndsctlSocket => some { settings with ndsctlSock := text }
  | .setMSS =>
      checked (parseBoolean arg) (fun _ => false) fun value => { settings with setMss := value }
  | .mssValue =>
      checked (scanInt arg) (fun _ => false) fun value => { settings with mssValue := value }
  | .trafficControl =>
      checked (parseBoolean arg) (fun _ => false) fun value =>
        { settings with trafficControl := value }
  | .downloadLimit =>
      checked (scanInt arg) (· < 0) fun value => { settings with downloadLimit := value }
  | .uploadLimit =>
      checked (scanInt arg) (· < 0) fun value => { settings with uploadLimit := value }
  | .uploadIFB =>
      checked (scanInt arg) (· < 0) fun value => { settings with uploadIfb := value }
  | .fwMarkAuthenticated =>
      checked (scanHex arg)
        (fun mark => mark = 0 || mark = settings.fwMarkBlocked || mark = settings.fwMarkTrusted)
        fun mark => { settings with fwMarkAuthenticated := mark }
  | .fwMarkBlocked =>
      checked (scanHex arg)
        (fun mark =>
          mark = 0 || mark = settings.fwMarkAuthenticated || mark = settings.fwMarkTrusted)
        fun mark => { settings with fwMarkBlocked := mark }
  | .fwMarkTrusted =>
      checked (scanHex arg)
        (fun mark =>
          mark = 0 || mark = settings.fwMarkAuthenticated || mark = settings.fwMarkBlocked)
        fun mark => { settings with fwMarkTrusted := mark }
  | .checkInterval =>
      checked (scanAnyInt arg) (· < 1) fun value => { settings with checkinterval := value }
  | .syslogFacility =>
      checked (scanInt arg) (fun _ => false) fun value => { settings with syslogFacility := value }
  | .stateFile => some { settings with statefile := text }
  | .badOption => none
  -- no case of the `switch`
  | .firewallRule => some settings
  | .firewallRuleSet => some settings

def splitOption (line : List Char) : Option (List Char × List Char) :=
  match line.dropWhile fun char => !isSpace char with
  | [] => none
  | _ :: rest => some (line.takeWhile fun char => !isSpace char, rest.dropWhile isBlankChar)

def parseRuleLine (line : List Char) : Option FirewallRule :=
  match line.dropWhile fun char => !isBlankChar char with
  | [] => none
  | _ :: rest =>
      match configParseOpcode (line.takeWhile fun char => !isBlankChar char) with
      | .firewallRule => parseFirewallRule (rest.dropWhile isBlankChar)
      | _ => none

/-- `config_read` and `parse_firewall_ruleset`, which read from one file: `inside`
is the ruleset of the loop that reads. -/
def configRead (inside : Option RulesetName) (settings : Settings) :
    List (List Char) → Option Settings
  | [] => some settings
  | line :: rest =>
      match stripWhitespace line, inside with
      | [], inside => configRead inside settings rest
      | first :: line, some ruleset =>
          if first = '}' then configRead none settings rest
          else
            (parseRuleLine (first :: line)).bind fun rule =>
              configRead (some ruleset) (settings.addRule ruleset rule) rest
      | first :: line, none =>
          (splitOption (first :: line)).bind fun words =>
            let opcode := configParseOpcode words.1
            if opcode = .firewallRuleSet then
              (getRuleset (words.2.takeWhile fun char => !isBlankChar char)).bind fun ruleset =>
                configRead (some ruleset) settings rest
            else
              (readOption isExecutable settings opcode words.2).bind fun settings =>
                configRead none settings rest

end

end Nodogsplash
