import Nodogsplash.ClientListRuns

/-! # Places on the client list

`MaxClients` bounds the client list as a whole. A client of the trusted list
takes a place like any other. -/

namespace Nodogsplash

namespace ClientList

theorem Edit.mono {small large : Int} (smaller : small ≤ large) {before after : ClientList}
    (edit : Edit small before after) : Edit large before after := by
  cases edit with
  | modify address mac ip => exact .modify address mac ip
  | push validMac validIp absent room => exact .push validMac validIp absent (by omega)
  | delete address => exact .delete _ address
  | flush => exact .flush _

theorem Edits.mono {small large : Int} (smaller : small ≤ large) {before after : ClientList}
    (edits : Edits small before after) : Edits large before after :=
  Relation.ReflTransGen.mono (fun _ _ => Edit.mono smaller) _ _ edits

end ClientList

namespace Gateway

/-- The number of clients whose MAC is not on the trusted list. -/
def untrustedCount (gateway : Gateway) : Nat :=
  gateway.clients.nodes.countP fun node => !gateway.config.isTrustedMac node.client.mac

theorem untrustedCount_le (gateway : Gateway) :
    gateway.untrustedCount ≤ gateway.clients.nodes.length :=
  List.countP_le_length

theorem untrustedCount_eq_length_iff (gateway : Gateway) :
    gateway.untrustedCount = gateway.clients.nodes.length ↔
      ∀ node ∈ gateway.clients.nodes, gateway.config.isTrustedMac node.client.mac = false := by
  rw [untrustedCount, List.countP_eq_length]
  simp

theorem clientListAddClient_eq_none_iff (gateway : Gateway) {mac ip : String}
    (validMac : checkMacFormat mac = true) (validIp : checkIpFormat ip = true)
    (absent : gateway.clients.find mac ip = none) :
    (gateway.clientListAddClient mac ip).1 = none ↔
      gateway.config.maxclients ≤ gateway.clients.nodes.length := by
  have appended : gateway.clientListAddClient mac ip = gateway.clientListAppend mac ip := by
    simp [clientListAddClient, validMac, validIp, absent]
  rw [appended, clientListAppend, gateway.clients.counted]
  split
  · rename_i full
    exact iff_of_true rfl full
  · rename_i room
    exact iff_of_false (Option.some_ne_none _) room

/-- The list is well formed, and not longer than `MaxClients` allows or empty. -/
def ListFits (gateway : Gateway) : Prop :=
  gateway.clients.WellFormed (max gateway.config.maxclients 0)

theorem listFits_of_empty {gateway : Gateway} (empty : gateway.clients.nodes = []) :
    gateway.ListFits :=
  ClientList.wellFormed_of_empty (le_max_right _ _) empty

theorem ListFits.transitions {permits : Permissions} {gateway next : Gateway}
    (fits : gateway.ListFits) (transitions : Transitions permits gateway next) :
    next.ListFits := by
  have edits := (Transitions.edits transitions).mono (le_max_left _ 0)
  rw [ListFits, (Transitions.follows transitions).settings.maxclients]
  exact edits.wellFormed (le_max_right _ _) fits

theorem listFits_of_started {environment : Environment} {gateway : Gateway}
    (started : mainLoop environment = some gateway) : gateway.ListFits := by
  rcases mainLoop_cases started with ⟨initial, _, fresh, ⟨_, rfl⟩ | ⟨_, recovered, _⟩⟩
  · exact (listFits_of_empty fresh.nodes).transitions
      (stateFileImport_transitions initial environment.stateFile)
  · exact listFits_of_empty recovered.nodes

theorem full_of_untrusted_iff {gateway : Gateway} (fits : gateway.ListFits) :
    (gateway.config.maxclients ≤ gateway.clients.nodes.length →
        gateway.config.maxclients ≤ gateway.untrustedCount) ↔
      gateway.clients.nodes.length < gateway.config.maxclients ∨
        ∀ node ∈ gateway.clients.nodes, gateway.config.isTrustedMac node.client.mac = false := by
  have count := gateway.untrustedCount_le
  have length : (gateway.clients.nodes.length : Int) ≤ max gateway.config.maxclients 0 :=
    fits.count ▸ fits.room
  rw [← untrustedCount_eq_length_iff]
  omega

end Gateway

/-- In every state of every run, only users make the list refuse a new client
exactly if there is room on it or none of its clients is trusted. -/
theorem refused_by_untrusted_iff {environment : Environment} {initial final : Gateway}
    {events : List (Int × Event)} (started : mainLoop environment = some initial)
    (run : DaemonRun initial events final) {mac ip : String}
    (validMac : checkMacFormat mac = true) (validIp : checkIpFormat ip = true)
    (absent : final.clients.find mac ip = none) :
    ((final.clientListAddClient mac ip).1 = none →
        final.config.maxclients ≤ final.untrustedCount) ↔
      final.clients.nodes.length < final.config.maxclients ∨
        ∀ node ∈ final.clients.nodes, final.config.isTrustedMac node.client.mac = false := by
  have fits := (Gateway.listFits_of_started started).transitions (Gateway.run_transitions run)
  rw [final.clientListAddClient_eq_none_iff validMac validIp absent]
  exact Gateway.full_of_untrusted_iff fits

/-- A daemon for one user, with a trusted MAC. -/
def oneUserEnvironment : Environment :=
  { defaultEnvironment with
    config := { defaultConfig with maxclients := 1, trustedmaclist := ["00:16:3e:00:00:01"] } }

theorem mainLoop_oneUser : (mainLoop oneUserEnvironment).isSome = true := by
  decide +kernel

def oneUserGateway : Gateway := (mainLoop oneUserEnvironment).get mainLoop_oneUser

/-- The trusted client looks at the status page; a day later a pass runs. -/
def trustedVisit : List (Int × Event) :=
  [(1000, .request (defaultRequest "/" fun _ => none)), (87400, .refresh true true)]

theorem refused_by_untrusted_iff_oneUser :
    let final := trustedVisit.foldl Gateway.step oneUserGateway
    ((final.clientListAddClient "00:16:3e:00:00:02" "192.168.42.11").1 = none →
        final.config.maxclients ≤ final.untrustedCount) ↔
      final.clients.nodes.length < final.config.maxclients ∨
        ∀ node ∈ final.clients.nodes, final.config.isTrustedMac node.client.mac = false :=
  refused_by_untrusted_iff (Option.some_get mainLoop_oneUser).symm
    ((Execution.run_ofFunction_iff _ _ _ _).mpr rfl) (by decide +kernel) (by decide +kernel)
    (by decide +kernel)

/-- The trusted client keeps its place, and the only user is refused. -/
theorem user_refused_for_trusted :
    let final := trustedVisit.foldl Gateway.step oneUserGateway
    mainLoop oneUserEnvironment = some oneUserGateway ∧
      DaemonRun oneUserGateway trustedVisit final ∧
      checkMacFormat "00:16:3e:00:00:02" = true ∧ checkIpFormat "192.168.42.11" = true ∧
      final.clients.find "00:16:3e:00:00:02" "192.168.42.11" = none ∧
      (final.clientListAddClient "00:16:3e:00:00:02" "192.168.42.11").1 = none ∧
      final.config.maxclients = 1 ∧ final.untrustedCount = 0 := by
  refine ⟨(Option.some_get mainLoop_oneUser).symm,
    (Execution.run_ofFunction_iff _ _ _ _).mpr rfl, ?_, ?_, ?_, ?_, ?_, ?_⟩ <;> decide +kernel

end Nodogsplash
