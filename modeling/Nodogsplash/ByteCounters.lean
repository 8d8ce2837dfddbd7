import Mathlib.Data.List.TakeWhile
import Nodogsplash.AuthenticationRules

/-! # Reading the byte counters

What one call of `iptables_fw_counters_update` does to the counters of a client,
and when the lines it reads for a client are those of the client's own rules. -/

namespace Nodogsplash

/-! ## Addresses in a listing -/

def octetDigits (value : Nat) : Nat := if value < 10 then 1 else if value < 100 then 2 else 3

theorem octetDigits_bounds (value : Nat) : 1 ≤ octetDigits value ∧ octetDigits value ≤ 3 := by
  unfold octetDigits
  split
  · omega
  · split <;> omega

theorem octetDigits_lt {value : Nat} (positive : value ≠ 0) (digit : Nat)
    (fits : value * 10 + digit ≤ 255) : octetDigits value < octetDigits (value * 10 + digit) := by
  have tens : ¬ value * 10 + digit < 10 := by omega
  unfold octetDigits
  rw [if_neg tens]
  split
  · split <;> omega
  · have hundreds : ¬ value * 10 + digit < 100 := by omega
    rw [if_neg hundreds, if_pos (by omega)]
    omega

/-- How long a text can be after which the scan is in this state. -/
structure QuadScan.Within (scan : QuadScan) (length : Nat) : Prop where
  octets : scan.octets ≤ if scan.sawDigit then 4 else 3
  begun : scan.sawDigit = true → 0 < scan.octets
  length : length + (if scan.sawDigit then 4 else 0) ≤
    4 * scan.octets + if scan.sawDigit then octetDigits scan.current else 0

theorem QuadScan.Within.read {scan next : QuadScan} {length : Nat} {char : Char}
    (within : scan.Within length) (taken : scan.read char = some next) :
    next.Within (length + 1) ∧ (char.isDigit = true ∨ char = '.') := by
  rcases within with ⟨octets, begun, bound⟩
  rw [QuadScan.read] at taken
  split at taken
  · next digit =>
      refine ⟨?_, .inl digit⟩
      have small := digit
      simp only [Char.isDigit, Bool.and_eq_true, decide_eq_true_eq] at small
      simp only at taken
      cases saw : scan.sawDigit with
      | true =>
          simp only [saw, Bool.true_and, decide_eq_true_eq, if_true] at taken octets begun bound
          split at taken
          · cases taken
          · next positive =>
              split at taken
              · cases taken
              · next fits =>
                  have longer := octetDigits_lt positive (char.toNat - '0'.toNat) (by omega)
                  cases taken
                  refine ⟨by simpa using octets, by simpa using begun, ?_⟩
                  simp only [if_true]
                  omega
      | false =>
          simp only [saw, Bool.false_and, Bool.false_eq_true, if_false] at taken octets bound
          split at taken
          · cases taken
          · split at taken
            · cases taken
            · have one := octetDigits_bounds (scan.current * 10 + (char.toNat - '0'.toNat))
              cases taken
              refine ⟨by simp only [if_true]; omega, by simp, ?_⟩
              simp only [if_true]
              omega
  · split at taken
    · next dot =>
        simp only [Bool.and_eq_true, decide_eq_true_eq] at dot
        refine ⟨?_, .inr dot.1⟩
        split at taken
        · cases taken
        · cases taken
          simp only [dot.2, if_true] at octets bound
          have three := octetDigits_bounds scan.current
          refine ⟨by simp only [Bool.false_eq_true, if_false]; omega, by simp, ?_⟩
          simp only [Bool.false_eq_true, if_false]
          omega
    · cases taken

theorem QuadScan.Within.foldlM {scan final : QuadScan} {length : Nat} {chars : List Char}
    (within : scan.Within length) (taken : chars.foldlM QuadScan.read scan = some final) :
    final.Within (length + chars.length) ∧ ∀ char ∈ chars, char.isDigit = true ∨ char = '.' := by
  induction chars generalizing scan length with
  | nil =>
      cases taken
      exact ⟨within, by simp⟩
  | cons char chars induction =>
      rw [List.foldlM_cons] at taken
      rcases Option.bind_eq_some_iff.mp taken with ⟨middle, first, rest⟩
      have one := within.read first
      have others := induction one.1 rest
      rw [List.length_cons, Nat.add_comm chars.length 1, ← Nat.add_assoc]
      refine ⟨others.1, ?_⟩
      intro other member
      rcases List.mem_cons.mp member with rfl | inRest
      · exact one.2
      · exact others.2 other inRest

theorem scanAddress_of_valid {ip : String} (valid : checkIpFormat ip = true) :
    Gateway.scanAddress ip = ip := by
  rw [checkIpFormat] at valid
  split at valid
  · next final scanned =>
      have initial : QuadScan.Within ⟨0, 0, false⟩ 0 := ⟨by simp, by simp, by simp⟩
      rcases initial.foldlM scanned with ⟨⟨octets, _, bound⟩, plain⟩
      have four := of_decide_eq_true valid
      have short : ip.toList.length ≤ 15 := by
        have three := octetDigits_bounds final.current
        split at octets
        · next saw =>
            simp only [saw, if_true] at bound
            omega
        · omega
      have all : ∀ char ∈ ip.toList, (char.isDigit || decide (char = '.')) = true := by
        intro char member
        simpa using plain char member
      rw [Gateway.scanAddress, List.take_of_length_le short, List.takeWhile_eq_self_iff.mpr all,
        String.ofList_toList]
  · cases valid

namespace Gateway

/-! ## One listing -/

section

variable (column : Rule → String) (raise : Nat → Counters → Counters)

def lineFor (gateway : Gateway) (entry : Entry) : Option Node :=
  let ip := scanAddress (column entry.rule)
  if gateway.config.ip6 || !checkIpFormat ip then none else gateway.clients.findByIp ip

def linesFor (gateway : Gateway) (entries : List Entry) (node : Node) : List Entry :=
  entries.filter fun entry =>
    decide ((gateway.lineFor column entry).map Node.address = some node.address)

def countNode (change : Node → Counters → Counters) (node : Node) : Node :=
  { node with client := { node.client with counters := change node node.client.counters } }

@[simp] theorem countNode_self : countNode (fun _ counters => counters) = id := rfl

theorem nodes_readCounter (gateway : Gateway) (entry : Entry) :
    (readCounter column raise gateway entry).clients.nodes =
      gateway.clients.nodes.map (countNode fun node counters =>
        if (gateway.lineFor column entry).map Node.address = some node.address then
          raise entry.bytes counters
        else counters) := by
  simp only [readCounter, lineFor]
  split
  · simp
  · cases gateway.clients.findByIp (scanAddress (column entry.rule)) with
    | none => simp
    | some found =>
        apply List.map_congr_left
        intro node _
        simp only [Option.map_some, Option.some.injEq, countNode]
        by_cases same : node.address = found.address
        · simp [same]
        · simp [same, Ne.symm same]

theorem lineFor_of_counted {gateway next : Gateway} {change : Node → Counters → Counters}
    (config : next.config = gateway.config)
    (nodes : next.clients.nodes = gateway.clients.nodes.map (countNode change)) (entry : Entry) :
    (next.lineFor column entry).map Node.address =
      (gateway.lineFor column entry).map Node.address := by
  simp only [lineFor, config]
  split
  · rfl
  · rw [ClientList.findByIp, ClientList.findByIp, nodes, List.find?_map, Option.map_map]
    rfl

theorem linesFor_cons (gateway : Gateway) (entry : Entry) (entries : List Entry) (node : Node) :
    gateway.linesFor column (entry :: entries) node =
      if (gateway.lineFor column entry).map Node.address = some node.address then
        entry :: gateway.linesFor column entries node
      else gateway.linesFor column entries node := by
  simp only [linesFor, List.filter_cons, decide_eq_true_eq]

theorem nodes_foldl_readCounter (entries : List Entry) (gateway : Gateway) :
    (entries.foldl (readCounter column raise) gateway).clients.nodes =
      gateway.clients.nodes.map (countNode fun node counters =>
        (gateway.linesFor column entries node).foldl
          (fun counters entry => raise entry.bytes counters) counters) := by
  induction entries generalizing gateway with
  | nil => simp [linesFor]
  | cons entry entries induction =>
      have nodes := nodes_readCounter column raise gateway entry
      rcases readCounter_eq column raise gateway entry with ⟨clients, equal⟩
      have config : (readCounter column raise gateway entry).config = gateway.config := by
        rw [equal]
      have lines (node : Node) : (readCounter column raise gateway entry).linesFor column entries
          node = gateway.linesFor column entries node := by
        simp only [linesFor, lineFor_of_counted column config nodes]
      rw [List.foldl_cons, induction, nodes, List.map_map]
      apply List.map_congr_left
      intro node _
      simp only [Function.comp_apply, countNode, lines, linesFor_cons]
      split
      · rfl
      · rfl

end

/-! ## One call -/

def largest (entries : List Entry) : Nat := (entries.map Entry.bytes).foldr max 0

theorem largest_cons (entry : Entry) (entries : List Entry) :
    largest (entry :: entries) = max entry.bytes (largest entries) := rfl

theorem foldl_raise {raise : Nat → Counters → Counters}
    (zero : ∀ counters, raise 0 counters = counters)
    (twice : ∀ first second counters,
      raise second (raise first counters) = raise (max first second) counters)
    (entries : List Entry) (counters : Counters) :
    entries.foldl (fun counters entry => raise entry.bytes counters) counters =
      raise (largest entries) counters := by
  induction entries generalizing counters with
  | nil => exact (zero counters).symm
  | cons entry entries induction => rw [List.foldl_cons, induction, twice, largest_cons]

theorem raiseOutgoing_of_lt (now : Int) {bytes : Nat} {counters : Counters}
    (grown : counters.outgoing < bytes) :
    raiseOutgoing now bytes counters =
      { counters with outgoing := bytes, lastUpdated := now } := if_pos grown

theorem raiseOutgoing_of_le (now : Int) {bytes : Nat} {counters : Counters}
    (unchanged : bytes ≤ counters.outgoing) : raiseOutgoing now bytes counters = counters :=
  if_neg (Nat.not_lt.mpr unchanged)

theorem raiseIncoming_of_lt {bytes : Nat} {counters : Counters}
    (grown : counters.incoming < bytes) :
    raiseIncoming bytes counters = { counters with incoming := bytes } := if_pos grown

theorem raiseIncoming_of_le {bytes : Nat} {counters : Counters}
    (unchanged : bytes ≤ counters.incoming) : raiseIncoming bytes counters = counters :=
  if_neg (Nat.not_lt.mpr unchanged)

theorem raiseOutgoing_twice (now : Int) (first second : Nat) (counters : Counters) :
    raiseOutgoing now second (raiseOutgoing now first counters) =
      raiseOutgoing now (max first second) counters := by
  rcases Nat.lt_or_ge counters.outgoing first with raised | below
  · rw [raiseOutgoing_of_lt now raised]
    rcases Nat.lt_or_ge first second with again | kept
    · rw [raiseOutgoing_of_lt now again, raiseOutgoing_of_lt now (by omega),
        Nat.max_eq_right (by omega)]
    · rw [raiseOutgoing_of_le now kept, raiseOutgoing_of_lt now (by omega),
        Nat.max_eq_left (by omega)]
  · rw [raiseOutgoing_of_le now below]
    rcases Nat.lt_or_ge counters.outgoing second with later | kept
    · rw [raiseOutgoing_of_lt now later, raiseOutgoing_of_lt now (by omega),
        Nat.max_eq_right (by omega)]
    · rw [raiseOutgoing_of_le now kept, raiseOutgoing_of_le now (by omega)]

theorem raiseIncoming_twice (first second : Nat) (counters : Counters) :
    raiseIncoming second (raiseIncoming first counters) =
      raiseIncoming (max first second) counters := by
  rcases Nat.lt_or_ge counters.incoming first with raised | below
  · rw [raiseIncoming_of_lt raised]
    rcases Nat.lt_or_ge first second with again | kept
    · rw [raiseIncoming_of_lt again, raiseIncoming_of_lt (by omega), Nat.max_eq_right (by omega)]
    · rw [raiseIncoming_of_le kept, raiseIncoming_of_lt (by omega), Nat.max_eq_left (by omega)]
  · rw [raiseIncoming_of_le below]
    rcases Nat.lt_or_ge counters.incoming second with later | kept
    · rw [raiseIncoming_of_lt later, raiseIncoming_of_lt (by omega), Nat.max_eq_right (by omega)]
    · rw [raiseIncoming_of_le kept, raiseIncoming_of_le (by omega)]

theorem foldl_raiseOutgoing (now : Int) (entries : List Entry) (counters : Counters) :
    entries.foldl (fun counters entry => raiseOutgoing now entry.bytes counters) counters =
      raiseOutgoing now (largest entries) counters :=
  foldl_raise (fun _ => raiseOutgoing_of_le now (Nat.zero_le _)) (raiseOutgoing_twice now) _ _

theorem foldl_raiseIncoming (entries : List Entry) (counters : Counters) :
    entries.foldl (fun counters entry => raiseIncoming entry.bytes counters) counters =
      raiseIncoming (largest entries) counters :=
  foldl_raise (fun _ => raiseIncoming_of_le (Nat.zero_le _)) raiseIncoming_twice _ _

def markedEntries (gateway : Gateway) : List Entry :=
  gateway.listedEntries .outgoing fun
    | .mark _ _ => true
    | _ => false

def acceptedEntries (gateway : Gateway) : List Entry :=
  gateway.listedEntries .incoming fun target => decide (target = .accept)

def outgoingLines (gateway : Gateway) (node : Node) : List Entry :=
  gateway.linesFor sourceColumn gateway.markedEntries node

def incomingLines (gateway : Gateway) (node : Node) : List Entry :=
  gateway.linesFor destinationColumn gateway.acceptedEntries node

theorem nodes_iptablesFwCountersUpdate (incomingRead : Bool) (gateway : Gateway) :
    (iptablesFwCountersUpdate true incomingRead gateway).2.clients.nodes =
      gateway.clients.nodes.map (countNode fun node counters =>
        let counted := raiseOutgoing gateway.clock (largest (gateway.outgoingLines node)) counters
        if incomingRead then raiseIncoming (largest (gateway.incomingLines node)) counted
        else counted) := by
  let first := gateway.markedEntries.foldl
    (readCounter sourceColumn (raiseOutgoing gateway.clock)) gateway
  have nodes : first.clients.nodes = gateway.clients.nodes.map (countNode fun node counters =>
      raiseOutgoing gateway.clock (largest (gateway.outgoingLines node)) counters) := by
    rw [nodes_foldl_readCounter]
    simp only [foldl_raiseOutgoing]
    rfl
  cases incomingRead with
  | false => exact nodes
  | true =>
      have listed : first.acceptedEntries = gateway.acceptedEntries :=
        foldl_readCounter_keeps acceptedEntries (fun _ _ => rfl) _ _ _ _
      have config : first.config = gateway.config :=
        foldl_readCounter_keeps Gateway.config (fun _ _ => rfl) _ _ _ _
      have lines (node : Node) (change : Node → Counters → Counters) :
          first.incomingLines (countNode change node) = gateway.incomingLines node := by
        simp only [incomingLines, linesFor, listed, lineFor_of_counted _ config nodes]
        rfl
      have second : (iptablesFwCountersUpdate true true gateway).2.clients.nodes =
          first.clients.nodes.map (countNode fun node counters =>
            raiseIncoming (largest (first.incomingLines node)) counters) := by
        have loop := nodes_foldl_readCounter destinationColumn raiseIncoming
          first.acceptedEntries first
        simp only [foldl_raiseIncoming] at loop
        exact loop
      rw [second, nodes, List.map_map]
      apply List.map_congr_left
      intro node _
      simp only [Function.comp_apply]
      rw [countNode, lines]
      rfl

/-! ## Whose lines they are -/

theorem largest_eq_zero {entries : List Entry} (silent : ∀ entry ∈ entries, entry.bytes = 0) :
    largest entries = 0 := by
  induction entries with
  | nil => rfl
  | cons entry entries induction =>
      rw [largest_cons, silent entry List.mem_cons_self,
        induction fun other member => silent other (List.mem_cons_of_mem _ member)]
      rfl

theorem largest_filter_congr {first second : Entry → Bool} {entries : List Entry}
    (same : ∀ entry ∈ entries, entry.bytes ≠ 0 → first entry = second entry) :
    largest (entries.filter first) = largest (entries.filter second) := by
  induction entries with
  | nil => rfl
  | cons entry entries induction =>
      have rest := induction fun other member => same other (List.mem_cons_of_mem _ member)
      by_cases silent : entry.bytes = 0
      · have skip (keep : Entry → Bool) :
            largest ((entry :: entries).filter keep) = largest (entries.filter keep) := by
          rw [List.filter_cons]
          split
          · rw [largest_cons, silent, Nat.zero_max]
          · rfl
        rw [skip, skip, rest]
      · have alike := same entry List.mem_cons_self silent
        rw [List.filter_cons, List.filter_cons, alike]
        split
        · rw [largest_cons, largest_cons, rest]
        · exact rest

def ownRule (gateway : Gateway) (client : Client) : Rule :=
  outgoingRule gateway.firewall.markop gateway.marks.toMarks client.ip client.mac

/-- The byte count of the rule of a client in `ndsOUT`. -/
def outgoingBytes (gateway : Gateway) (client : Client) : Nat :=
  largest (gateway.markedEntries.filter fun entry =>
    decide (entry.rule = gateway.ownRule client))

/-- The lines that have counted something are read for the authenticated clients
that own the rules. -/
structure ReadForOwners (gateway : Gateway) (incomingRead : Bool) : Prop where
  owners : ∀ node ∈ gateway.clients.nodes,
    node.client.fwConnectionState = gateway.marks.authenticated →
      ∀ entry ∈ gateway.markedEntries, entry.rule = gateway.ownRule node.client →
        entry.bytes ≠ 0 → gateway.lineFor sourceColumn entry = some node
  outgoing : ∀ entry ∈ gateway.markedEntries, entry.bytes ≠ 0 →
    ∀ node ∈ gateway.lineFor sourceColumn entry,
      node.client.fwConnectionState = gateway.marks.authenticated ∧
        entry.rule = gateway.ownRule node.client
  incoming : incomingRead = true → ∀ entry ∈ gateway.acceptedEntries, entry.bytes ≠ 0 →
    ∀ node ∈ gateway.lineFor destinationColumn entry,
      node.client.fwConnectionState = gateway.marks.authenticated

theorem mem_of_lineFor {column : Rule → String} {gateway : Gateway} {entry : Entry} {node : Node}
    (found : gateway.lineFor column entry = some node) : node ∈ gateway.clients.nodes := by
  simp only [lineFor] at found
  split at found
  · cases found
  · exact List.mem_of_find?_eq_some found

theorem lineFor_eq_of_address {column : Rule → String} {gateway : Gateway} {entry : Entry}
    {node : Node} (member : node ∈ gateway.clients.nodes)
    (found : (gateway.lineFor column entry).map Node.address = some node.address) :
    gateway.lineFor column entry = some node := by
  rcases Option.map_eq_some_iff.mp found with ⟨other, line, same⟩
  rw [line, ClientList.eq_of_address (mem_of_lineFor line) member same]

theorem ReadForOwners.largest_outgoingLines {gateway : Gateway} {incomingRead : Bool}
    (owners : gateway.ReadForOwners incomingRead) {node : Node}
    (member : node ∈ gateway.clients.nodes)
    (state : node.client.fwConnectionState = gateway.marks.authenticated) :
    largest (gateway.outgoingLines node) = gateway.outgoingBytes node.client := by
  apply largest_filter_congr
  intro entry listed counted
  rw [decide_eq_decide]
  constructor
  · intro found
    exact (owners.outgoing entry listed counted node (lineFor_eq_of_address member found)).2
  · intro own
    rw [owners.owners node member state entry listed own counted, Option.map_some]

theorem ReadForOwners.others {gateway : Gateway} {incomingRead : Bool}
    (owners : gateway.ReadForOwners incomingRead) {node : Node}
    (member : node ∈ gateway.clients.nodes)
    (state : node.client.fwConnectionState ≠ gateway.marks.authenticated) :
    largest (gateway.outgoingLines node) = 0 ∧
      (incomingRead = true → largest (gateway.incomingLines node) = 0) := by
  refine ⟨largest_eq_zero ?_, fun read => largest_eq_zero ?_⟩
  · intro entry line
    rcases List.mem_filter.mp line with ⟨listed, found⟩
    by_contra counted
    have line := lineFor_eq_of_address member (of_decide_eq_true found)
    exact state (owners.outgoing entry listed counted node line).1
  · intro entry line
    rcases List.mem_filter.mp line with ⟨listed, found⟩
    by_contra counted
    have line := lineFor_eq_of_address member (of_decide_eq_true found)
    exact state (owners.incoming read entry listed counted node line)

end Gateway

end Nodogsplash
