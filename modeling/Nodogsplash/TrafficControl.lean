import Nodogsplash.Config

/-! # Traffic control

The `tc` and `ip link` commands that shape the traffic of authenticated
clients. The daemon never reads back what they do, so the state is the list of
commands run so far, with their exit codes. -/

namespace Nodogsplash

/-- One command. Class, filter and qdisc ids are those of the root qdisc `1:`,
which is itself the parent 0. -/
inductive TcCommand
  | setLink (device : String) (up : Bool)
  | deleteRoot (device : String)
  | deleteIngress (device : String)
  | addRoot (device : String)
  | addIngress (device : String)
  | addRedirect (device ifb : String)
  | addClass (device : String) (parent classid : Int) (service : String) (upperLimit : Int)
  | addFilter (device : String) (prio : Int) (selector : String) (flowid : Int)
  | addQdisc (device : String) (parent handle : Int)
  | deleteFilter (device : String) (prio : Int)
  | deleteQdisc (device : String) (parent : Int)
  | deleteClass (device : String) (classid : Int)
  deriving DecidableEq

/-- The commands run so far; `exitCode n` is what the n-th of them returns. -/
structure TrafficControl where
  exitCode : Nat → BitVec 32
  commands : List TcCommand

namespace TrafficControl

/-- `execute` one command. -/
def execute (traffic : TrafficControl) (command : TcCommand) : BitVec 32 × TrafficControl :=
  (traffic.exitCode traffic.commands.length,
    { traffic with commands := traffic.commands ++ [command] })

/-- `rc |= execute(…)` for a sequence of commands. -/
def executeAll (traffic : TrafficControl) : List TcCommand → BitVec 32 × TrafficControl
  | [] => (0, traffic)
  | command :: rest =>
      let (rc, traffic) := traffic.execute command
      let (others, traffic) := traffic.executeAll rest
      (rc ||| others, traffic)

def AcceptsAll (traffic : TrafficControl) (commands : List TcCommand) : Prop :=
  ∀ number < commands.length, traffic.exitCode (traffic.commands.length + number) = 0

theorem executeAll_eq_zero_iff (traffic : TrafficControl) (commands : List TcCommand) :
    (traffic.executeAll commands).1 = 0 ↔ traffic.AcceptsAll commands := by
  induction commands generalizing traffic with
  | nil => exact iff_of_true rfl nofun
  | cons command commands induction =>
      have joined : (traffic.executeAll (command :: commands)).1 = 0 ↔
          traffic.exitCode traffic.commands.length = 0 ∧
            ((traffic.execute command).2.executeAll commands).1 = 0 :=
        BitVec.or_eq_zero_iff
      rw [joined, induction]
      simp only [AcceptsAll, execute, List.length_append, List.length_cons]
      constructor
      · rintro ⟨first, rest⟩ number below
        cases number with
        | zero => exact first
        | succ number =>
            have later := rest number (by omega)
            rwa [Nat.add_right_comm] at later
      · intro all
        refine ⟨all 0 (by omega), fun number below => ?_⟩
        have later := all (number + 1) (by omega)
        rwa [← Nat.add_assoc, Nat.add_right_comm] at later

end TrafficControl

def tcId (idx : Int) : Int := toInt32 (3 * idx + 10)

/-- The objects of one client on one device; `direction` and `port` select its
packets. -/
def tcAttachDevice (device : String) (limit id : Int) (direction port ip : String) :
    List TcCommand :=
  [.addClass device 1 id s!"sc rate {limit.tdiv 5}kbit" limit,
    .addClass device id (id + 1)
      (s!"rt m1 {limit.tdiv 5 * 4}kbit d 25ms m2 {limit.tdiv 20}kbit " ++
        s!"ls m1 {limit.tdiv 10}kbit d 25ms m2 {limit.tdiv 10}kbit") limit,
    .addFilter device id s!"match ip {direction} {ip} match ip protocol 1 0xff" (id + 1),
    .addFilter device (id + 1) s!"match ip {direction} {ip} match ip {port} 53 0xffff" (id + 1),
    .addClass device id (id + 2) s!"ls m1 0kbit d 100ms m2 {limit.tdiv 5}kbit" limit,
    .addFilter device (id + 2) s!"match ip {direction} {ip}" (id + 2),
    .addQdisc device (id + 1) (id + 1),
    .addQdisc device (id + 2) (id + 2)]

/-- `tc_attach_client`. -/
def tcAttachClient (config : Config) (downDev : String) (downloadLimit : Int) (upDev : String)
    (uploadLimit idx : Int) (ip : String) (traffic : TrafficControl) :
    BitVec 32 × TrafficControl :=
  let dlimit := min downloadLimit config.downloadLimit
  let ulimit := min uploadLimit config.uploadLimit
  let id := tcId idx
  traffic.executeAll
    ((if dlimit > 0 then tcAttachDevice downDev dlimit id "dst" "sport" ip else []) ++
      if ulimit > 0 then tcAttachDevice upDev ulimit id "src" "dport" ip else [])

def tcDetachDevice (device : String) (id : Int) : List TcCommand :=
  [.deleteFilter device (id + 2), .deleteFilter device (id + 1), .deleteFilter device id,
    .deleteQdisc device (id + 2), .deleteQdisc device (id + 1),
    .deleteClass device (id + 2), .deleteClass device (id + 1), .deleteClass device id]

/-- `tc_detach_client`. -/
def tcDetachClient (downDev : String) (downloadLimit : Int) (upDev : String)
    (uploadLimit idx : Int) (traffic : TrafficControl) : BitVec 32 × TrafficControl :=
  let id := tcId idx
  traffic.executeAll
    ((if downloadLimit > 0 then tcDetachDevice downDev id else []) ++
      if uploadLimit > 0 then tcDetachDevice upDev id else [])

/-- The name of the upload device. -/
def Config.uploadIfbname (config : Config) : String := s!"ifb{config.uploadIfb}"

/-- `tc_attach_upload_qdisc`; the results of the two deletions are dropped. -/
def tcAttachUploadQdisc (dev ifbDev : String) (uploadLimit : Int) (traffic : TrafficControl) :
    BitVec 32 × TrafficControl :=
  let (_, traffic) := traffic.executeAll [.deleteRoot ifbDev, .deleteIngress dev]
  traffic.executeAll
    [.addRoot ifbDev,
      .addClass ifbDev 0 1 s!"sc rate {uploadLimit}kbit" uploadLimit,
      .addClass ifbDev 1 2 s!"sc rate {uploadLimit.tdiv 10}kbit" (uploadLimit.tdiv 10),
      .addIngress dev,
      .addRedirect dev ifbDev]

/-- `tc_attach_download_qdisc`. -/
def tcAttachDownloadQdisc (dev : String) (downloadLimit : Int) (traffic : TrafficControl) :
    BitVec 32 × TrafficControl :=
  let (_, traffic) := traffic.execute (.deleteRoot dev)
  traffic.executeAll
    [.addRoot dev,
      .addClass dev 0 1 s!"sc rate {downloadLimit}kbit" downloadLimit,
      .addClass dev 1 2 s!"sc rate {downloadLimit.tdiv 10}kbit" (downloadLimit.tdiv 10)]

/-- `tc_init_tc`. -/
def tcInitTc (config : Config) (traffic : TrafficControl) : BitVec 32 × TrafficControl :=
  let (download, traffic) :=
    if config.downloadLimit > 0 then
      tcAttachDownloadQdisc config.gwInterface config.downloadLimit traffic
    else (0, traffic)
  if config.uploadLimit > 0 then
    let (ret, traffic) := traffic.execute (.setLink config.uploadIfbname true)
    if ret ≠ 0 then (-1, traffic)
    else
      let (upload, traffic) :=
        tcAttachUploadQdisc config.gwInterface config.uploadIfbname config.uploadLimit traffic
      (download ||| upload, traffic)
  else (download, traffic)

/-- `tc_destroy_tc`. -/
def tcDestroyTc (config : Config) (traffic : TrafficControl) : BitVec 32 × TrafficControl :=
  traffic.executeAll
    [.deleteRoot config.gwInterface, .deleteRoot config.uploadIfbname,
      .setLink config.uploadIfbname false]

end Nodogsplash
