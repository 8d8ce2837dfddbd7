import Nodogsplash.ClientIds
import Nodogsplash.Threads

/-! # The traffic-control objects of the clients

What the `tc` commands set up on the devices, and that the classes, filters and
qdiscs of the clients come and go with their sessions. -/

namespace Nodogsplash

open Relation (ReflTransGen)

/-! ## Objects -/

/-- What `tc` knows on a device: the two roots, the filter that redirects to the
upload device, and the objects that are named by a class id, a priority or a
handle. -/
inductive TcObject
  | root (device : String)
  | ingress (device : String)
  | redirect (device : String)
  | classid (device : String) (classid : Int)
  | prio (device : String) (prio : Int)
  | handle (device : String) (parent handle : Int)
  deriving DecidableEq

namespace TcObject

def device : TcObject → String
  | .root device | .ingress device | .redirect device => device
  | .classid device _ | .prio device _ | .handle device _ _ => device

def isBelowRoot : TcObject → Bool
  | .ingress _ | .redirect _ => false
  | _ => true

/-- The command names the object: a filter by its priority, a qdisc by its
parent, a class by its id. -/
def isDeletedBy (object : TcObject) : TcCommand → Bool
  | .deleteRoot device => decide (object.device = device) && object.isBelowRoot
  | .deleteIngress device => decide (object.device = device) && !object.isBelowRoot
  | .deleteFilter device number => decide (object = .prio device number)
  | .deleteClass device number => decide (object = .classid device number)
  | .deleteQdisc device parent =>
      match object with
      | .handle other otherParent _ => decide (other = device) && decide (otherParent = parent)
      | _ => false
  | _ => false

end TcObject

/-- The object that a command adds. -/
def TcCommand.added : TcCommand → Option TcObject
  | .addRoot device => some (.root device)
  | .addIngress device => some (.ingress device)
  | .addRedirect device _ => some (.redirect device)
  | .addClass device _ classid _ _ => some (.classid device classid)
  | .addFilter device prio _ _ => some (.prio device prio)
  | .addQdisc device parent handle => some (.handle device parent handle)
  | _ => none

/-- What is there after a command: `add` creates its object, `del` removes those
that it names and has no effect without them. -/
def TcCommand.perform (objects : List TcObject) (command : TcCommand) : List TcObject :=
  command.added.toList ++ objects.filter fun object => !object.isDeletedBy command

/-- What is there after the commands run so far, if `before` was there first. -/
def TrafficControl.objects (before : List TcObject) (traffic : TrafficControl) : List TcObject :=
  traffic.commands.foldl TcCommand.perform before

theorem mem_perform {objects : List TcObject} {command : TcCommand} {object : TcObject} :
    object ∈ command.perform objects ↔
      command.added = some object ∨ object ∈ objects ∧ object.isDeletedBy command = false := by
  rw [TcCommand.perform, List.mem_append, Option.mem_toList, List.mem_filter,
    Bool.not_eq_true']

theorem commands_executeAll (traffic : TrafficControl) (commands : List TcCommand) :
    (traffic.executeAll commands).2.commands = traffic.commands ++ commands := by
  induction commands generalizing traffic with
  | nil => exact (List.append_nil _).symm
  | cons command commands induction =>
      rw [TrafficControl.executeAll]
      simp only [induction, TrafficControl.execute, List.append_assoc, List.singleton_append]

theorem objects_executeAll (before : List TcObject) (traffic : TrafficControl)
    (commands : List TcCommand) :
    (traffic.executeAll commands).2.objects before =
      commands.foldl TcCommand.perform (traffic.objects before) := by
  rw [TrafficControl.objects, commands_executeAll, List.foldl_append]
  rfl

theorem mem_foldl_perform {commands : List TcCommand} {objects : List TcObject}
    {object : TcObject} (member : object ∈ commands.foldl TcCommand.perform objects) :
    (∃ command ∈ commands, command.added = some object) ∨
      object ∈ objects ∧ ∀ command ∈ commands, object.isDeletedBy command = false := by
  induction commands generalizing objects with
  | nil => exact .inr ⟨member, by simp⟩
  | cons command commands induction =>
      rcases induction member with ⟨later, inRest, added⟩ | ⟨present, kept⟩
      · exact .inl ⟨later, List.mem_cons_of_mem _ inRest, added⟩
      · rcases mem_perform.mp present with added | ⟨first, spared⟩
        · exact .inl ⟨command, List.mem_cons_self, added⟩
        · right
          refine ⟨first, ?_⟩
          intro other inList
          rcases List.mem_cons.mp inList with rfl | inRest
          · exact spared
          · exact kept other inRest

/-! ## The objects of a client -/

/-- The numbers of the client's objects. -/
def Client.tcIds (client : Client) : List Int :=
  let id := tcId client.id.toInt
  [id, id + 1, id + 2]

/-- The object is one that `tc_attach_client` adds for the client. -/
def Client.Owns (client : Client) : TcObject → Prop
  | .classid _ classid => classid ∈ client.tcIds
  | .prio _ prio => prio ∈ client.tcIds
  | .handle _ parent handle => parent = handle ∧
      (handle = tcId client.id.toInt + 1 ∨ handle = tcId client.id.toInt + 2)
  | _ => False

theorem Client.owns_congr {client other : Client} (id : other.id = client.id)
    (object : TcObject) : other.Owns object ↔ client.Owns object := by
  cases object <;> simp only [Client.Owns, Client.tcIds, id]

def Config.Limits (config : Config) (device : String) : Prop :=
  (device = config.gwInterface ∧ config.downloadLimit > 0) ∨
    (device = config.uploadIfbname ∧ config.uploadLimit > 0)

theorem owns_of_added {client : Client} {device : String} {limit : Int}
    {direction port ip : String} {command : TcCommand} {object : TcObject}
    (member : command ∈ tcAttachDevice device limit (tcId client.id.toInt) direction port ip)
    (added : command.added = some object) : client.Owns object ∧ object.device = device := by
  simp only [tcAttachDevice, List.mem_cons, List.not_mem_nil, or_false] at member
  rcases member with rfl | rfl | rfl | rfl | rfl | rfl | rfl | rfl <;> cases added <;>
    simp [Client.Owns, Client.tcIds, TcObject.device]

theorem deleted_of_owns {client : Client} {device : String} {object : TcObject}
    (owns : client.Owns object) (same : object.device = device) :
    ∃ command ∈ tcDetachDevice device (tcId client.id.toInt),
      object.isDeletedBy command = true := by
  subst same
  cases object with
  | root | ingress | redirect => exact owns.elim
  | classid device classid =>
      refine ⟨.deleteClass device classid, ?_, by simp [TcObject.isDeletedBy]⟩
      simp only [Client.Owns, Client.tcIds, List.mem_cons, List.not_mem_nil, or_false] at owns
      rcases owns with rfl | rfl | rfl <;> simp [tcDetachDevice, TcObject.device]
  | prio device prio =>
      refine ⟨.deleteFilter device prio, ?_, by simp [TcObject.isDeletedBy]⟩
      simp only [Client.Owns, Client.tcIds, List.mem_cons, List.not_mem_nil, or_false] at owns
      rcases owns with rfl | rfl | rfl <;> simp [tcDetachDevice, TcObject.device]
  | handle device parent handle =>
      refine ⟨.deleteQdisc device parent, ?_, by simp [TcObject.isDeletedBy]⟩
      rcases owns with ⟨rfl, rfl | rfl⟩ <;> simp [tcDetachDevice, TcObject.device]

theorem mem_tcAttachClient {config : Config} {client : Client} {ip : String}
    {downloadLimit uploadLimit : Int} {before : List TcObject} {traffic : TrafficControl}
    {object : TcObject}
    (member : object ∈ (tcAttachClient config config.gwInterface downloadLimit
      config.uploadIfbname uploadLimit client.id.toInt ip traffic).2.objects before) :
    object ∈ traffic.objects before ∨ client.Owns object ∧ config.Limits object.device := by
  rw [tcAttachClient, objects_executeAll] at member
  rcases mem_foldl_perform member with ⟨command, inList, added⟩ | ⟨present, _⟩
  · right
    rcases List.mem_append.mp inList with download | upload
    · split at download
      · next limited =>
          rcases owns_of_added download added with ⟨owns, device⟩
          exact ⟨owns, .inl ⟨device, by omega⟩⟩
      · cases download
    · split at upload
      · next limited =>
          rcases owns_of_added upload added with ⟨owns, device⟩
          exact ⟨owns, .inr ⟨device, by omega⟩⟩
      · cases upload
  · exact .inl present

theorem mem_tcDetachClient {config : Config} {client : Client}
    {downloadLimit uploadLimit : Int} {before : List TcObject} {traffic : TrafficControl}
    {object : TcObject} (download : config.downloadLimit > 0 → downloadLimit > 0)
    (upload : config.uploadLimit > 0 → uploadLimit > 0)
    (member : object ∈ (tcDetachClient config.gwInterface downloadLimit
      config.uploadIfbname uploadLimit client.id.toInt traffic).2.objects before) :
    object ∈ traffic.objects before ∧
      (config.Limits object.device → ¬ client.Owns object) := by
  rw [tcDetachClient, objects_executeAll] at member
  rcases mem_foldl_perform member with ⟨command, inList, added⟩ | ⟨present, kept⟩
  · have none : command.added = none := by
      have deletes {device : String} {id : Int}
          (inDevice : command ∈ tcDetachDevice device id) : command.added = none := by
        simp only [tcDetachDevice, List.mem_cons, List.not_mem_nil, or_false] at inDevice
        rcases inDevice with rfl | rfl | rfl | rfl | rfl | rfl | rfl | rfl <;> rfl
      rcases List.mem_append.mp inList with first | second
      · split at first
        · exact deletes first
        · cases first
      · split at second
        · exact deletes second
        · cases second
    rw [none] at added
    cases added
  · refine ⟨present, ?_⟩
    rintro (⟨device, limited⟩ | ⟨device, limited⟩) owns
    · rcases deleted_of_owns owns device with ⟨command, inDevice, deleted⟩
      have spared := kept command (List.mem_append_left _ (by rwa [if_pos (download limited)]))
      rw [deleted] at spared
      cases spared
    · rcases deleted_of_owns owns device with ⟨command, inDevice, deleted⟩
      have spared := kept command (List.mem_append_right _ (by rwa [if_pos (upload limited)]))
      rw [deleted] at spared
      cases spared

/-! ## Objects and sessions -/

/-- The objects that `tc_init_tc` adds. -/
def TcObject.IsOfInit : TcObject → Prop
  | .classid _ number => number = 1 ∨ number = 2
  | .prio _ _ | .handle _ _ _ => False
  | _ => True

namespace Gateway

/-- On the two devices there are the objects of `tc_init_tc` and those of
authenticated clients. -/
def ObjectsOwned (before : List TcObject) (gateway : Gateway) : Prop :=
  ∀ object ∈ gateway.traffic.objects before,
    object.device = gateway.config.gwInterface ∨ object.device = gateway.config.uploadIfbname →
      object.IsOfInit ∨ gateway.config.Limits object.device ∧
        ∃ node ∈ gateway.clients.nodes,
          node.client.fwConnectionState = gateway.marks.authenticated ∧ node.client.Owns object

theorem shapingLimits_pos (config : Config) (client : Client) :
    (config.downloadLimit > 0 → (shapingLimits config client).1 > 0) ∧
      (config.uploadLimit > 0 → (shapingLimits config client).2 > 0) := by
  rw [shapingLimits]
  split
  · next own => exact ⟨fun _ => own.1, fun _ => own.2⟩
  · exact ⟨id, id⟩

theorem enterAuthenticated_traffic (gateway : Gateway) (node : Node) (reason : Option String) :
    (gateway.enterAuthenticated node reason).traffic =
      (gateway.iptablesFwAuthenticate node.client).2.traffic := by
  simp only [enterAuthenticated, record, setState, modifyClient, binauthAction]

theorem leaveAuthenticated_traffic (gateway : Gateway) (node : Node) (reason : Option String) :
    (gateway.leaveAuthenticated node reason).traffic =
      (gateway.iptablesFwDeauthenticate node.client).2.traffic := by
  simp only [leaveAuthenticated, record, setState, clientReset, modifyClient, drawToken,
    binauthAction]

theorem leaveBlocked_traffic (gateway : Gateway) (node : Node) (reason : Option String) :
    (gateway.leaveBlocked node reason).traffic =
      (gateway.iptablesFwDeauthenticate node.client).2.traffic := by
  simp only [leaveBlocked, record, clientListDelete, authClientBlock, editMacList, binauthAction]

theorem mem_iptablesFwAuthenticate {gateway : Gateway} {client : Client} {before : List TcObject}
    {object : TcObject}
    (member : object ∈ (gateway.iptablesFwAuthenticate client).2.traffic.objects before) :
    object ∈ gateway.traffic.objects before ∨
      client.Owns object ∧ gateway.config.Limits object.device := by
  simp only [iptablesFwAuthenticate] at member
  split at member
  · exact mem_tcAttachClient member
  · exact .inl member

theorem mem_iptablesFwDeauthenticate {gateway : Gateway} {client : Client}
    {before : List TcObject} {object : TcObject} (on : gateway.config.trafficControl = true)
    (member : object ∈ (gateway.iptablesFwDeauthenticate client).2.traffic.objects before) :
    object ∈ gateway.traffic.objects before ∧
      (gateway.config.Limits object.device → ¬ client.Owns object) := by
  have positive := shapingLimits_pos gateway.config client
  simp only [iptablesFwDeauthenticate, on, if_true] at member
  exact mem_tcDetachClient positive.1 positive.2 member

theorem ObjectsOwned.of_owners {before : List TcObject} {gateway next : Gateway}
    (owned : gateway.ObjectsOwned before) (follows : gateway.Follows next)
    (present : ∀ object ∈ next.traffic.objects before, object ∈ gateway.traffic.objects before)
    (owners : ∀ node ∈ gateway.clients.nodes,
      node.client.fwConnectionState = gateway.marks.authenticated →
        ∀ object ∈ next.traffic.objects before, gateway.config.Limits object.device →
          node.client.Owns object → ∃ later ∈ next.clients.nodes,
            later.client.fwConnectionState = gateway.marks.authenticated ∧
              later.client.id = node.client.id) : next.ObjectsOwned before := by
  have gwInterface : next.config.gwInterface = gateway.config.gwInterface :=
    follows.settings.keeps _ fun _ _ _ _ => rfl
  have uploadIfbname : next.config.uploadIfbname = gateway.config.uploadIfbname :=
    follows.settings.keeps _ fun _ _ _ _ => rfl
  have limits : next.config.Limits = gateway.config.Limits :=
    follows.settings.keeps _ fun _ _ _ _ => rfl
  intro object member device
  rw [gwInterface, uploadIfbname] at device
  rw [limits, follows.marks]
  rcases owned object (present object member) device with
    initial | ⟨limited, node, inList, state, owns⟩
  · exact .inl initial
  · rcases owners node inList state object member limited owns with ⟨later, inNext, same, id⟩
    refine .inr ⟨limited, later, inNext, same, ?_⟩
    exact (Client.owns_congr id object).mpr owns

theorem ObjectsOwned.modify {before : List TcObject} {gateway : Gateway}
    (owned : gateway.ObjectsOwned before) (address : Nat) (change : Client → Client)
    (state : ∀ client, (change client).fwConnectionState = client.fwConnectionState)
    (id : ∀ client, (change client).id = client.id) :
    (gateway.modifyClient address change).ObjectsOwned before := by
  refine owned.of_owners ⟨.refl _, .refl _, rfl⟩ (fun _ member => member) ?_
  intro node member authenticated _ _ _ _
  by_cases same : node.address = address
  · subst same
    exact ⟨_, mem_modifyClient member change, (state _).trans authenticated, id _⟩
  · exact ⟨node, ClientList.mem_modify.mpr (.inr ⟨member, same⟩), authenticated, rfl⟩

theorem ObjectsOwned.detached {before : List TcObject} {gateway next : Gateway} {node : Node}
    (owned : gateway.ObjectsOwned before) (on : gateway.config.trafficControl = true)
    (inList : node ∈ gateway.clients.nodes) (follows : gateway.Follows next)
    (traffic : next.traffic = (gateway.iptablesFwDeauthenticate node.client).2.traffic)
    (others : ∀ owner ∈ gateway.clients.nodes, owner.address ≠ node.address →
      owner ∈ next.clients.nodes) : next.ObjectsOwned before := by
  apply owned.of_owners follows
  · intro object member
    rw [traffic] at member
    exact (mem_iptablesFwDeauthenticate on member).1
  · intro owner ownerIn state object member limited owns
    rw [traffic] at member
    have different : owner.address ≠ node.address := by
      intro same
      rw [ClientList.eq_of_address ownerIn inList same] at owns
      exact (mem_iptablesFwDeauthenticate on member).2 limited owns
    exact ⟨owner, others owner ownerIn different, state, rfl⟩

theorem ObjectsOwned.transition {before : List TcObject} {gateway next : Gateway}
    (owned : gateway.ObjectsOwned before) (on : gateway.config.trafficControl = true)
    (transition : Transition (.all .sessions) gateway next) : next.ObjectsOwned before := by
  have follows := transition.follows
  have still {next : Gateway} (follows : gateway.Follows next)
      (traffic : next.traffic = gateway.traffic)
      (clients : ∀ node ∈ gateway.clients.nodes,
        node.client.fwConnectionState = gateway.marks.authenticated →
          node ∈ next.clients.nodes) : next.ObjectsOwned before := by
    refine owned.of_owners follows (by rw [traffic]; exact fun _ => id) ?_
    intro node member state _ _ _ _
    exact ⟨node, clients node member state, state, rfl⟩
  cases transition with
  | clock | authentications | bytes => exact still follows rfl fun _ member _ => member
  | add _ _ _ added =>
      rcases clientListAppend_eq added with ⟨_, _, rfl⟩
      exact still follows rfl fun _ member _ => ClientList.mem_push.mpr (.inl member)
  | @delete target inList fresh =>
      refine still follows rfl fun node member state => ?_
      refine ClientList.mem_delete_iff.mpr ⟨member, fun same => ?_⟩
      rw [ClientList.eq_of_address member inList same, fresh] at state
      exact preauthenticated_ne_authenticated _ state
  | count raise =>
      exact owned.modify _ (fun client => { client with counters := raise client.counters })
        (fun _ => rfl) fun _ => rfl
  | assign keeps _ keepsId => exact owned.modify _ _ keeps.state (keepsId rfl)
  | @authenticate node reason inList fresh =>
      intro object member device
      rw [enterAuthenticated_traffic] at member
      rw [enterAuthenticated_config] at device ⊢
      rw [enterAuthenticated_marks, enterAuthenticated_clients]
      rcases mem_iptablesFwAuthenticate member with present | ⟨owns, limited⟩
      · rcases owned object present device with initial | ⟨limited, owner, ownerIn, state, owns⟩
        · exact .inl initial
        · refine .inr ⟨limited, owner, ClientList.mem_modify.mpr (.inr ⟨ownerIn, ?_⟩), state, owns⟩
          intro same
          rw [ClientList.eq_of_address ownerIn inList same, fresh] at state
          exact preauthenticated_ne_authenticated _ state
      · refine .inr ⟨limited, _, ClientList.mem_modify.mpr (.inl ⟨node, inList, rfl, rfl⟩), rfl, ?_⟩
        exact (Client.owns_congr rfl object).mpr owns
  | @deauthenticate node reason inList authenticated =>
      apply owned.detached on inList follows (leaveAuthenticated_traffic gateway node reason)
      intro owner ownerIn different
      rw [leaveAuthenticated_clients]
      exact ClientList.mem_modify.mpr
        (.inr ⟨ClientList.mem_modify.mpr (.inr ⟨ownerIn, different⟩), different⟩)
  | @block node reason inList authenticated =>
      apply owned.detached on inList follows (leaveBlocked_traffic gateway node reason)
      intro owner ownerIn different
      rw [leaveBlocked_clients]
      exact ClientList.mem_delete_iff.mpr ⟨ownerIn, different⟩
  | editMacs mac command =>
      refine still follows ?_ fun _ member _ => by rwa [editMacs_clients]
      cases command <;> rfl

theorem ObjectsOwned.transitions {before : List TcObject} {gateway next : Gateway}
    (owned : gateway.ObjectsOwned before) (on : gateway.config.trafficControl = true)
    (transitions : Transitions (.all .sessions) gateway next) : next.ObjectsOwned before := by
  induction transitions with
  | refl => exact owned
  | tail before transition induction =>
      have still := (Transitions.follows before).settings.keeps Config.trafficControl
        fun _ _ _ _ => rfl
      exact induction.transition (still.trans on) transition

end Gateway

/-! ## The start -/

def TrafficControl.SetsUp (before after : TrafficControl) : Prop :=
  ∃ commands, after.commands = before.commands ++ commands ∧
    ∀ command ∈ commands, ∀ object, command.added = some object → object.IsOfInit

namespace TrafficControl.SetsUp

theorem refl (traffic : TrafficControl) : traffic.SetsUp traffic :=
  ⟨[], (List.append_nil _).symm, by simp⟩

theorem trans {first second third : TrafficControl} (left : first.SetsUp second)
    (right : second.SetsUp third) : first.SetsUp third := by
  rcases left with ⟨earlier, equal, initial⟩
  rcases right with ⟨later, same, others⟩
  refine ⟨earlier ++ later, by rw [same, equal, List.append_assoc], ?_⟩
  intro command member
  rcases List.mem_append.mp member with inFirst | inSecond
  · exact initial command inFirst
  · exact others command inSecond

theorem executeAll (traffic : TrafficControl) {commands : List TcCommand}
    (initial : ∀ command ∈ commands, ∀ object, command.added = some object → object.IsOfInit) :
    traffic.SetsUp (traffic.executeAll commands).2 :=
  ⟨commands, commands_executeAll traffic commands, initial⟩

theorem execute (traffic : TrafficControl) {command : TcCommand}
    (nothing : command.added = none) : traffic.SetsUp (traffic.execute command).2 := by
  refine ⟨[command], rfl, ?_⟩
  intro other member object added
  rw [List.mem_singleton.mp member, nothing] at added
  cases added

theorem tcInitTc (config : Config) (traffic : TrafficControl) :
    traffic.SetsUp (tcInitTc config traffic).2 := by
  have download (traffic : TrafficControl) : traffic.SetsUp
      (tcAttachDownloadQdisc config.gwInterface config.downloadLimit traffic).2 := by
    refine (execute traffic rfl).trans (executeAll _ ?_)
    simp [TcCommand.added, TcObject.IsOfInit]
  have upload (traffic : TrafficControl) : traffic.SetsUp (tcAttachUploadQdisc
      config.gwInterface config.uploadIfbname config.uploadLimit traffic).2 := by
    simp only [tcAttachUploadQdisc]
    refine (executeAll traffic ?_).trans (executeAll _ ?_)
    · simp [TcCommand.added]
    · simp [TcCommand.added, TcObject.IsOfInit]
  have first : traffic.SetsUp (if config.downloadLimit > 0 then
      tcAttachDownloadQdisc config.gwInterface config.downloadLimit traffic
    else (0, traffic)).2 := by
    split
    · exact download traffic
    · exact refl traffic
  simp only [Nodogsplash.tcInitTc]
  generalize (if config.downloadLimit > 0 then
      tcAttachDownloadQdisc config.gwInterface config.downloadLimit traffic
    else (0, traffic)) = attached at first ⊢
  split
  · split
    · exact first.trans (execute _ rfl)
    · exact (first.trans (execute _ rfl)).trans (upload _)
  · exact first

theorem iptablesFwInit (config : Config) (firewall : Firewall) (traffic : TrafficControl) :
    traffic.SetsUp (iptablesFwInit config firewall traffic).2.2 := by
  have shaped : traffic.SetsUp
      (if config.trafficControl then Nodogsplash.tcInitTc config traffic else (0, traffic)).2 := by
    split
    · exact tcInitTc config traffic
    · exact refl traffic
  rw [Nodogsplash.iptablesFwInit]
  split
  · exact refl traffic
  · split
    · exact refl traffic
    · exact shaped

end TrafficControl.SetsUp

/-- After `tc_destroy_tc` and `tc_init_tc` nothing is left of what was there before. -/
theorem objectsOwned_of_initial {environment : Environment} {gateway : Gateway}
    (before : List TcObject) (started : initialGateway environment = some gateway)
    (on : environment.config.trafficControl = true) : gateway.ObjectsOwned before := by
  rcases Option.bind_eq_some_iff.mp started with ⟨⟨firewall, traffic⟩, reset, rest⟩
  rcases Option.bind_eq_some_iff.mp rest with ⟨marks, _, equal⟩
  cases equal
  have setUp : (tcDestroyTc environment.config ⟨environment.tcExitCode, []⟩).2.SetsUp traffic := by
    rcases Option.bind_eq_some_iff.mp reset with ⟨⟨destroyed, removed⟩, returned, initialized⟩
    rcases Option.bind_eq_some_iff.mp returned with ⟨_, _, rest⟩
    rcases Option.bind_eq_some_iff.mp rest with ⟨_, _, rest⟩
    rcases Option.bind_eq_some_iff.mp rest with ⟨_, _, last⟩
    cases last
    simp only [on, if_true] at initialized
    split at initialized
    · cases initialized
      exact TrafficControl.SetsUp.iptablesFwInit _ _ _
    · cases initialized
  rcases setUp with ⟨commands, run, initial⟩
  intro object member device
  left
  rw [TrafficControl.objects, run] at member
  rcases mem_foldl_perform member with ⟨command, inList, added⟩ | ⟨_, kept⟩
  · rcases List.mem_append.mp inList with destroyed | later
    · rw [tcDestroyTc, commands_executeAll, List.nil_append] at destroyed
      simp only [List.mem_cons, List.not_mem_nil, or_false] at destroyed
      rcases destroyed with rfl | rfl | rfl <;> cases added
    · exact initial command later object added
  · have spared : object.isBelowRoot = false := by
      have deletes (other : String) (root : .deleteRoot other ∈
          (tcDestroyTc environment.config ⟨environment.tcExitCode, []⟩).2.commands)
          (same : object.device = other) : object.isBelowRoot = false := by
        simpa [TcObject.isDeletedBy, same] using kept _ (List.mem_append_left _ root)
      rcases device with same | same
      · exact deletes _ (by simp [tcDestroyTc, commands_executeAll]) same
      · exact deletes _ (by simp [tcDestroyTc, commands_executeAll]) same
    cases object with
    | root | classid | prio | handle => cases spared
    | ingress | redirect => trivial

/-! ## Numbers -/

structure ClientList.NumberedByAddress (list : ClientList) : Prop where
  counter : list.clientId = BitVec.ofNat 32 (list.created + 1)
  ids : ∀ node ∈ list.nodes, node.client.id = BitVec.ofNat 32 (node.address + 1)

theorem ClientList.NumberedByAddress.init : ClientList.init.NumberedByAddress where
  counter := rfl
  ids := by simp [ClientList.init]

theorem ClientList.NumberedByAddress.modify {list : ClientList}
    (numbered : list.NumberedByAddress) (address : Nat) (change : Client → Client)
    (keepsId : ∀ client, (change client).id = client.id) :
    (list.modify address change).NumberedByAddress where
  counter := numbered.counter
  ids := by
    intro node member
    rcases mem_modify.mp member with ⟨source, inList, _, rfl⟩ | ⟨inList, _⟩
    · exact (keepsId _).trans (numbered.ids source inList)
    · exact numbered.ids node inList

theorem ClientList.NumberedByAddress.delete {list : ClientList}
    (numbered : list.NumberedByAddress) (address : Nat) :
    (list.delete address).NumberedByAddress where
  counter := by simpa using numbered.counter
  ids := fun node member => numbered.ids node (mem_of_mem_delete member)

namespace Gateway

theorem Transition.numberedByAddress {gateway next : Gateway}
    (transition : Transition (.all .sessions) gateway next)
    (numbered : gateway.clients.NumberedByAddress) : next.clients.NumberedByAddress := by
  apply transition.keeps_clients
  · intro client id _ _
    constructor
    · simp [ClientList.push, numbered.counter, BitVec.ofNat_add]
    · intro node member
      rcases ClientList.mem_push.mp member with old | rfl
      · exact numbered.ids node old
      · exact id.trans numbered.counter
  · intro list address numbered
    exact numbered.delete address
  · intro list address change keepsId numbered
    exact numbered.modify address change keepsId
  · exact numbered

theorem Transitions.numberedByAddress {gateway next : Gateway}
    (transitions : Transitions (.all .sessions) gateway next)
    (numbered : gateway.clients.NumberedByAddress) : next.clients.NumberedByAddress := by
  induction transitions with
  | refl => exact numbered
  | tail _ transition induction => exact transition.numberedByAddress induction

theorem Transitions.created_le {permits : Permissions} {gateway next : Gateway}
    (transitions : Transitions permits gateway next) :
    gateway.clients.created ≤ next.clients.created := by
  induction transitions with
  | refl => exact le_rfl
  | tail _ transition induction => exact induction.trans transition.created_le

end Gateway

theorem toInt32_of_lt {value : Int} (nonnegative : 0 ≤ value) (small : value < 2 ^ 31) :
    toInt32 value = value := by
  rw [toInt32, Int.bmod_eq_of_le]
  · omega
  · omega

theorem tcId_of_address {list : ClientList} (numbered : list.NumberedByAddress)
    (few : list.created < 2 ^ 29) {node : Node} (member : node ∈ list.nodes) :
    tcId node.client.id.toInt = 3 * node.address + 13 := by
  have born := list.allocated node member
  have id : node.client.id.toInt = node.address + 1 := by
    rw [numbered.ids node member, BitVec.toInt_ofNat', Int.bmod_eq_of_le]
    · omega
    · omega
    · omega
  rw [tcId, id, toInt32_of_lt]
  · omega
  · omega
  · omega

theorem mem_tcIds_of_address {list : ClientList} (numbered : list.NumberedByAddress)
    (few : list.created < 2 ^ 29) {node : Node} (member : node ∈ list.nodes) {number : Int}
    (own : number ∈ node.client.tcIds) :
    13 ≤ number ∧ (number - 13) / 3 = node.address := by
  have first := tcId_of_address numbered few member
  simp only [Client.tcIds, first, List.mem_cons, List.not_mem_nil, or_false] at own
  omega

theorem not_owns_of_isOfInit {list : ClientList} (numbered : list.NumberedByAddress)
    (few : list.created < 2 ^ 29) {node : Node} (member : node ∈ list.nodes)
    {object : TcObject} (initially : object.IsOfInit) : ¬ node.client.Owns object := by
  intro owns
  cases object with
  | root | ingress | redirect => exact owns
  | classid device number =>
      have least := (mem_tcIds_of_address numbered few member owns).1
      rcases initially with rfl | rfl
      · omega
      · omega
  | prio | handle => exact initially

theorem Client.Owns.shared {client other : Client} {object : TcObject}
    (owns : client.Owns object) (others : other.Owns object) :
    ∃ number ∈ client.tcIds, number ∈ other.tcIds := by
  cases object with
  | root | ingress | redirect => exact owns.elim
  | classid device number => exact ⟨number, owns, others⟩
  | prio device number => exact ⟨number, owns, others⟩
  | handle device parent number =>
      refine ⟨number, ?_, ?_⟩
      · rcases owns.2 with equal | equal <;> simp [tcIds, equal]
      · rcases others.2 with equal | equal <;> simp [tcIds, equal]

/-! ## Runs -/

theorem ThreadRun.transitions {initial final : Threads} {sections : List Section}
    (run : Threads.ThreadRun initial sections final) :
    Gateway.Transitions (.all .sessions) initial.gateway final.gateway := by
  induction run with
  | nil => exact .refl
  | @cons current middle _ taken _ step _ induction =>
      subst step
      have first : Gateway.Transitions (.all .sessions) current.gateway
          (current.take taken).gateway := current.take_all_transitions fun _ => by decide
      exact first.trans induction

theorem start_without_file {environment : Environment} {initial : Gateway}
    (noFile : environment.stateFile = .missing) (started : mainLoop environment = some initial) :
    initialGateway environment = some initial := by
  rcases mainLoop_cases started with ⟨fresh, found, _, ⟨_, rfl⟩ | ⟨failed, _⟩⟩
  · rw [noFile]
    exact found
  · simp [noFile, Gateway.stateFileImport] at failed

/-- In every run without a state file the objects of the clients follow their
sessions, whatever has been written to their limits. -/
theorem traffic_objects_follow_sessions {environment : Environment} {initial : Gateway}
    {middle final : Threads} {earlier later : List Section} (before : List TcObject)
    (noFile : environment.stateFile = .missing) (started : mainLoop environment = some initial)
    (on : environment.config.trafficControl = true)
    (run : Threads.ThreadRun (.start initial) earlier middle)
    (rest : Threads.ThreadRun middle later final)
    (few : final.gateway.clients.created < 2 ^ 29) :
    let config := final.gateway.config
    let marks := final.gateway.marks
    let clients := final.gateway.clients.nodes
    let objects := (final.gateway.traffic.objects before).filter fun object =>
      decide (object.device = config.gwInterface ∨ object.device = config.uploadIfbname)
    (∀ object ∈ objects, object.IsOfInit ∨ ∃ node ∈ clients,
      node.client.fwConnectionState = marks.authenticated ∧ node.client.Owns object) ∧
    (∀ first ∈ middle.gateway.clients.nodes, ∀ second ∈ clients,
      first.address ≠ second.address →
        ∀ number ∈ first.client.tcIds, number ∉ second.client.tcIds) ∧
    (∀ node ∈ clients, 1 ∉ node.client.tcIds ∧ 2 ∉ node.client.tcIds) ∧
    ∀ first ∈ middle.gateway.clients.nodes,
      (∀ node ∈ clients, node.address = first.address →
        node.client.fwConnectionState ≠ marks.authenticated) →
      ∀ object ∈ objects, ¬ first.client.Owns object := by
  intro config marks clients objects
  have found := start_without_file noFile started
  have toMiddle := ThreadRun.transitions run
  have toFinal := ThreadRun.transitions rest
  have owned : final.gateway.ObjectsOwned before := by
    have still : initial.config.trafficControl = true := by
      rw [(initialGateway_fresh found).2.2]
      exact on
    exact ((objectsOwned_of_initial before found on).transitions still toMiddle).transitions
      (((toMiddle.follows.settings.keeps Config.trafficControl fun _ _ _ _ => rfl)).trans still)
      toFinal
  have atMiddle : middle.gateway.clients.NumberedByAddress := by
    refine toMiddle.numberedByAddress ?_
    rw [show (Threads.start initial).gateway.clients = .init from (initialGateway_fresh found).2.1]
    exact .init
  have atEnd := toFinal.numberedByAddress atMiddle
  have fewInMiddle : middle.gateway.clients.created < 2 ^ 29 :=
    lt_of_le_of_lt toFinal.created_le few
  have ownedByClients (object : TcObject) (member : object ∈ objects) : object.IsOfInit ∨
      ∃ node ∈ clients, node.client.fwConnectionState = marks.authenticated ∧
        node.client.Owns object := by
    rcases List.mem_filter.mp member with ⟨present, device⟩
    rcases owned object present (of_decide_eq_true device) with initially | ⟨_, owner⟩
    · exact .inl initially
    · exact .inr owner
  have disjoint (first : Node) (inMiddle : first ∈ middle.gateway.clients.nodes) (second : Node)
      (atLast : second ∈ clients) (different : first.address ≠ second.address) (number : Int)
      (own : number ∈ first.client.tcIds) : number ∉ second.client.tcIds := by
    intro shared
    have left := mem_tcIds_of_address atMiddle fewInMiddle inMiddle own
    have right := mem_tcIds_of_address atEnd few atLast shared
    omega
  refine ⟨ownedByClients, disjoint, ?_, ?_⟩
  · intro node member
    constructor
    · intro own
      have least := (mem_tcIds_of_address atEnd few member own).1
      omega
    · intro own
      have least := (mem_tcIds_of_address atEnd few member own).1
      omega
  · intro first inMiddle ended object member owns
    rcases ownedByClients object member with initially | ⟨owner, atLast, state, theirs⟩
    · exact not_owns_of_isOfInit atMiddle fewInMiddle inMiddle initially owns
    · rcases owns.shared theirs with ⟨number, own, other⟩
      by_cases same : owner.address = first.address
      · exact ended owner atLast same state
      · exact disjoint first inMiddle owner atLast (Ne.symm same) number own other

/-- Both directions are limited, and a BinAuth script decides. -/
def shapedEnvironment : Environment :=
  { defaultEnvironment with
    config := { defaultConfig with
      trafficControl := true, downloadLimit := 1000, uploadLimit := 500
      binauth := some "/etc/nodogsplash/binauth.sh" } }

theorem mainLoop_shaped : (mainLoop shapedEnvironment).isSome = true := by
  decide +kernel

def shapedGateway : Gateway := (mainLoop shapedEnvironment).get mainLoop_shaped

/-- A client is authenticated, and the limits of the script are written. -/
def shapedSections : List Section :=
  [.webRequest (defaultRequest "/" fun _ => none), .webDecide (.respond .refresh),
    .webRequest (tokenRequest ⟨.exited 0, "3600 200 100\n"⟩), .webDecide (.respond .refresh),
    .webEnter, .webWrite]

def shapedThreads : Threads := shapedSections.foldl Threads.take (.start shapedGateway)

theorem traffic_objects_follow_sessions_shaped :
    let final := [.ndsctlLookup "192.168.42.10", .ndsctlDeauth].foldl Threads.take shapedThreads
    (∃ node ∈ shapedThreads.gateway.clients.nodes, node.client.downloadLimit = 100 ∧
      node.client.fwConnectionState = shapedThreads.gateway.marks.authenticated) ∧
    (∃ object ∈ shapedThreads.gateway.traffic.objects [], ¬ object.IsOfInit) ∧
    ∀ object ∈ (final.gateway.traffic.objects []).filter fun object =>
      decide (object.device = final.gateway.config.gwInterface ∨
        object.device = final.gateway.config.uploadIfbname),
      ∀ first ∈ shapedThreads.gateway.clients.nodes, ¬ first.client.Owns object := by
  refine ⟨by decide +kernel, ⟨.prio "br-lan" 14, by decide +kernel, id⟩, ?_⟩
  have ended : ∀ node ∈ ([.ndsctlLookup "192.168.42.10", .ndsctlDeauth].foldl Threads.take
      shapedThreads).gateway.clients.nodes,
        node.client.fwConnectionState ≠ shapedGateway.marks.authenticated := by
    decide +kernel
  intro object member first inMiddle
  exact (traffic_objects_follow_sessions [] rfl (Option.some_get mainLoop_shaped).symm rfl
    (((Execution.run_ofFunction_iff _ _ _ _).mpr rfl : Threads.ThreadRun _ shapedSections _))
    ((Execution.run_ofFunction_iff _ _ _ _).mpr rfl) (by decide +kernel)).2.2.2
    first inMiddle
    (fun node last _ => ended node last) object member

end Nodogsplash
