import Nodogsplash.MacLists

/-! # New clients

The state that the documentation gives to a client by the MAC lists, and the
state `_client_list_append` gives it. -/

namespace Nodogsplash

def isOnList (list : List String) (mac : String) : Bool :=
  list.any (sameIgnoringCase · (scanMac mac))

namespace Config

def blocksMac (config : Config) (mac : String) : Bool :=
  match config.macmechanism with
  | .block => isOnList config.blockedmaclist mac
  | .allow => !isOnList config.allowedmaclist mac && !isOnList config.trustedmaclist mac

/-- The state of a new client as documented. -/
def documentedState (config : Config) (marks : Marks) (mac : String) : BitVec 32 :=
  if config.blocksMac mac then marks.blocked
  else if isOnList config.trustedmaclist mac then marks.trusted
  else preauthenticatedState

/-- The functions that look a MAC up find it where it is, and under the
mechanism `allow` it is trusted, or it is allowed and they do not find it. -/
def LooksUp (config : Config) (mac : String) : Prop :=
  match config.macmechanism with
  | .block =>
      isOnList config.blockedmaclist mac = config.blockedmaclist.contains mac ∧
        (isOnList config.blockedmaclist mac = false →
          isOnList config.trustedmaclist mac = config.trustedmaclist.contains mac)
  | .allow =>
      if isOnList config.trustedmaclist mac then
        config.allowedmaclist.contains mac ∨ config.trustedmaclist.contains mac
      else
        isOnList config.allowedmaclist mac = true ∧
          config.allowedmaclist.contains mac = false ∧
          config.trustedmaclist.contains mac = false

end Config

namespace Gateway

theorem classify_eq_iff (marks : AcceptedMarks) (first second third fourth : Bool) :
    ((if first then marks.blocked else if second then marks.trusted
        else preauthenticatedState) =
      if third then marks.blocked else if fourth then marks.trusted
        else preauthenticatedState) ↔
      first = third ∧ (first = false → second = fourth) := by
  have blocked : marks.blocked ≠ preauthenticatedState := marks.blocked_ne_zero
  have trusted : marks.trusted ≠ preauthenticatedState := marks.trusted_ne_zero
  cases first <;> cases third <;> cases second <;> cases fourth <;>
    simp [marks.blocked_ne_trusted, marks.blocked_ne_trusted.symm, blocked, blocked.symm, trusted,
      trusted.symm]

theorem classify_eq_documentedState_iff (config : Config) (marks : AcceptedMarks)
    (mac : String) : classify config marks.toMarks mac = config.documentedState marks.toMarks mac ↔
      config.LooksUp mac := by
  rw [classify, Config.documentedState, classify_eq_iff, Config.LooksUp]
  cases mechanism : config.macmechanism with
  | block =>
      have blocked : config.isBlockedMac mac = config.blockedmaclist.contains mac := by
        simp [Config.isBlockedMac, mechanism]
      have others : (config.isAllowedMac mac || config.isTrustedMac mac) =
          config.trustedmaclist.contains mac := by
        simp [Config.isAllowedMac, Config.isTrustedMac, mechanism]
      rw [blocked, others, Config.blocksMac, mechanism]
      constructor
      · rintro ⟨first, second⟩
        exact ⟨first.symm, fun unblocked => (second (first.trans unblocked)).symm⟩
      · rintro ⟨first, second⟩
        exact ⟨first.symm, fun unblocked => (second (first.trans unblocked)).symm⟩
  | allow =>
      have blocked : config.isBlockedMac mac = false := by
        simp [Config.isBlockedMac, mechanism]
      have others : (config.isAllowedMac mac || config.isTrustedMac mac) =
          (config.allowedmaclist.contains mac || config.trustedmaclist.contains mac) := by
        simp [Config.isAllowedMac, Config.isTrustedMac, mechanism]
      rw [blocked, others, Config.blocksMac, mechanism]
      cases isOnList config.trustedmaclist mac with
      | true => simp
      | false => simp

end Gateway

/-- A new client gets the state that the documentation gives to its MAC exactly
when the lists have the MAC as it is spelled and, under the mechanism `allow`,
only for clients that are trusted. -/
theorem new_clients_classified_iff {gateway next : Gateway} {mac ip : String} {node : Node}
    (absent : gateway.clients.find mac ip = none)
    (added : gateway.clientListAddClient mac ip = (some node, next)) :
    node.client.fwConnectionState =
        gateway.config.documentedState gateway.marks.toMarks mac ↔
      gateway.config.LooksUp mac := by
  rcases gateway.clientListAddClient_cases mac ip with
    ⟨_, present, _⟩ | ⟨_, _, _, _, _, appended, equal⟩ | refused
  · rw [absent] at present
    cases present
  · rw [added] at equal
    cases equal
    rcases Gateway.clientListAppend_eq appended with ⟨_, rfl, _⟩
    exact Gateway.classify_eq_documentedState_iff gateway.config gateway.marks mac
  · rw [added] at refused
    cases refused

/-- The default installation, with another mechanism and another list. -/
def allowingGateway : Gateway :=
  { defaultGateway with
    config := { defaultConfig with
      macmechanism := .allow, allowedmaclist := ["00:16:3e:00:00:01"] } }

def listingGateway : Gateway :=
  { defaultGateway with
    config := { defaultConfig with
      blockedmaclist := ["00:16:3e:00:00:01"], trustedmaclist := ["00:16:3e:00:00:01"] } }

theorem new_clients_classified_iff_listed :
    let mac := "00:16:3e:00:00:01"
    let kept := listingGateway.clientListAddClient mac "192.168.42.10"
    let trusted := allowingGateway.clientListAddClient mac "192.168.42.10"
    (∃ node, kept.1 = some node ∧ node.client.fwConnectionState =
        listingGateway.config.documentedState listingGateway.marks.toMarks mac) ∧
      ∃ node, trusted.1 = some node ∧ node.client.fwConnectionState ≠
        allowingGateway.config.documentedState allowingGateway.marks.toMarks mac := by
  intro mac kept trusted
  have added : kept.1.isSome = true ∧ trusted.1.isSome = true := by decide +kernel
  have absent : listingGateway.clients.find mac "192.168.42.10" = none ∧
      allowingGateway.clients.find mac "192.168.42.10" = none := by decide +kernel
  have looks : listingGateway.config.LooksUp mac :=
    ⟨by decide +kernel, fun unlisted => absurd unlisted (by decide +kernel)⟩
  have misses : ¬ allowingGateway.config.LooksUp mac := by
    intro found
    exact absurd found.2.1 (by decide +kernel)
  rcases Option.isSome_iff_exists.mp added.1 with ⟨node, first⟩
  rcases Option.isSome_iff_exists.mp added.2 with ⟨other, second⟩
  refine ⟨⟨node, first, ?_⟩, other, second, ?_⟩
  · exact (new_clients_classified_iff absent.1 (Prod.ext first rfl)).mpr looks
  · exact mt (new_clients_classified_iff absent.2 (Prod.ext second rfl)).mp misses

/-- A MAC that may authenticate is trusted, and one that is on no list may
authenticate. -/
theorem allowed_client_trusted :
    let allowed := allowingGateway.clientListAddClient "00:16:3e:00:00:01" "192.168.42.10"
    let unlisted := allowingGateway.clientListAddClient "00:16:3e:00:00:02" "192.168.42.11"
    allowed.1.map (·.client.fwConnectionState) = some allowingGateway.marks.trusted ∧
      allowingGateway.config.documentedState allowingGateway.marks.toMarks
        "00:16:3e:00:00:01" = preauthenticatedState ∧
      unlisted.1.map (·.client.fwConnectionState) = some preauthenticatedState ∧
      allowingGateway.config.documentedState allowingGateway.marks.toMarks
        "00:16:3e:00:00:02" = allowingGateway.marks.blocked := by
  refine ⟨?_, ?_, ?_, ?_⟩ <;> decide +kernel

end Nodogsplash
