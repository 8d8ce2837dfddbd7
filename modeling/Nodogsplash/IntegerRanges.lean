import Nodogsplash.AcceptedConfig

/-! # Products in an `int`

The daemon multiplies timeouts, limits and ids. A product is exact just if it is in the
range of an `int`. -/

namespace Nodogsplash

/-- `INT_MAX`. -/
def intMax : Int := 2 ^ 31 - 1

theorem toInt32_eq_self_iff (value : Int) :
    toInt32 value = value ↔ -intMax - 1 ≤ value ∧ value ≤ intMax := by
  rw [toInt32, Int.bmod_def, intMax]
  split <;> omega

theorem toInt32_mul_eq_self_iff {factor value : Int} (positive : 0 < factor)
    (nonneg : 0 ≤ value) :
    toInt32 (factor * value) = factor * value ↔ value ≤ intMax / factor := by
  have product : 0 ≤ factor * value := Int.mul_nonneg positive.le nonneg
  have bound : value ≤ intMax / factor ↔ factor * value ≤ intMax := by
    rw [Int.le_ediv_iff_mul_le positive, Int.mul_comm]
  rw [toInt32_eq_self_iff, bound]
  constructor
  · exact And.right
  · intro below
    exact ⟨by rw [intMax]; omega, below⟩

/-! ## The products -/

/-- The products of the configuration and of the clients have their exact values, and the
traffic control objects of two clients have different ids. -/
structure ExactProducts (config : Config) (clients : ClientList) : Prop where
  session : toInt32 (60 * config.sessionTimeout) = 60 * config.sessionTimeout
  preauthIdle : toInt32 (60 * config.preauthIdleTimeout) = 60 * config.preauthIdleTimeout
  authIdle : toInt32 (60 * config.authIdleTimeout) = 60 * config.authIdleTimeout
  limit : toInt32 (config.sessionLimitBlock * 1000) = config.sessionLimitBlock * 1000
  ids : ∀ node ∈ clients.nodes, tcId node.client.id.toInt = 3 * node.client.id.toNat + 10
  apart : ∀ first ∈ clients.nodes, ∀ second ∈ clients.nodes, first.client.id ≠ second.client.id →
    ∀ left right : Nat, left < 3 → right < 3 →
      tcId first.client.id.toInt + left ≠ tcId second.client.id.toInt + right

/-- Values whose products an `int` holds. -/
structure ProductsFit (config : Config) (clients : ClientList) : Prop where
  session : config.sessionTimeout ≤ intMax / 60
  preauthIdle : config.preauthIdleTimeout ≤ intMax / 60
  authIdle : config.authIdleTimeout ≤ intMax / 60
  limit : (config.sessionLimitBlock.natAbs : Int) ≤ intMax / 1000
  ids : ∀ node ∈ clients.nodes, (node.client.id.toNat : Int) ≤ (intMax - 10) / 3

theorem limit_exact_iff (limit : Int) :
    toInt32 (limit * 1000) = limit * 1000 ↔ (limit.natAbs : Int) ≤ intMax / 1000 := by
  rw [toInt32_eq_self_iff, intMax]
  omega

/-- The id of a traffic control object is exact when the id of the client is not too large. -/
theorem tcId_exact_iff (id : BitVec 32) :
    tcId id.toInt = 3 * id.toNat + 10 ↔ (id.toNat : Int) ≤ (intMax - 10) / 3 := by
  have small := id.isLt
  rw [tcId, BitVec.toInt_eq_toNat_cond, toInt32, Int.bmod_def, intMax]
  split <;> split <;> omega

theorem tcId_apart {first second : BitVec 32} (different : first ≠ second)
    (firstExact : tcId first.toInt = 3 * first.toNat + 10)
    (secondExact : tcId second.toInt = 3 * second.toNat + 10) {left right : Nat}
    (leftBelow : left < 3) (rightBelow : right < 3) :
    tcId first.toInt + left ≠ tcId second.toInt + right := by
  have numbers : first.toNat ≠ second.toNat :=
    fun equal => different (BitVec.eq_of_toNat_eq equal)
  rw [firstExact, secondExact]
  omega

/-- The products of an accepted configuration and of the clients on a list are exact just if
no timeout, no limit and no id is too large. -/
theorem products_exact_iff {isExecutable : String → Bool} {lines : List (List Char)}
    {settings : Settings} (accepted : Accepted isExecutable lines settings) (launch : Launch)
    (clients : ClientList) :
    ExactProducts (settings.launch launch) clients ↔
      ProductsFit (settings.launch launch) clients := by
  have times := accepted.timesRead
  constructor
  · intro exact
    refine ⟨?_, ?_, ?_, (limit_exact_iff _).mp exact.limit, ?_⟩
    · exact (toInt32_mul_eq_self_iff (by decide) times.session).mp exact.session
    · exact (toInt32_mul_eq_self_iff (by decide) times.preauthIdle).mp exact.preauthIdle
    · exact (toInt32_mul_eq_self_iff (by decide) times.authIdle).mp exact.authIdle
    · exact fun node member => (tcId_exact_iff _).mp (exact.ids node member)
  · intro fit
    have ids : ∀ node ∈ clients.nodes,
        tcId node.client.id.toInt = 3 * node.client.id.toNat + 10 :=
      fun node member => (tcId_exact_iff _).mpr (fit.ids node member)
    refine ⟨?_, ?_, ?_, (limit_exact_iff _).mpr fit.limit, ids, ?_⟩
    · exact (toInt32_mul_eq_self_iff (by decide) times.session).mpr fit.session
    · exact (toInt32_mul_eq_self_iff (by decide) times.preauthIdle).mpr fit.preauthIdle
    · exact (toInt32_mul_eq_self_iff (by decide) times.authIdle).mpr fit.authIdle
    · intro first inList second other different left right leftBelow rightBelow
      exact tcId_apart different (ids first inList) (ids second other) leftBelow rightBelow

def timeoutLines : List (List Char) :=
  [interfaceLine, "SessionTimeout 1440\n".toList, "PreauthIdleTimeout 30\n".toList,
    "AuthIdleTimeout 120\n".toList, "SessionLimitBlock 500\n".toList]

def twoIds : ClientList :=
  (ClientList.init.push (defaultClient 1 "00:16:3e:00:00:01" "192.168.42.10")).push
    (defaultClient 715827879 "00:16:3e:00:00:02" "192.168.42.11")

theorem products_exact_iff_timeouts :
    ∃ settings, Accepted (fun _ => false) timeoutLines settings ∧
      settings.sessionTimeout = 1440 ∧ ExactProducts (settings.launch defaultLaunch) twoIds := by
  rcases exists_accepted (fun _ => false) timeoutLines
    (fun settings => settings.sessionTimeout = 1440 && settings.preauthIdleTimeout = 30 &&
      settings.authIdleTimeout = 120 && settings.sessionLimitBlock = 500) (by decide +kernel)
    with ⟨settings, accepted, stored⟩
  simp only [Bool.and_eq_true, decide_eq_true_eq, and_assoc] at stored
  rcases stored with ⟨session, preauthIdle, authIdle, limit⟩
  refine ⟨settings, accepted, session, (products_exact_iff accepted defaultLaunch twoIds).mpr ?_⟩
  have ids : ∀ node ∈ twoIds.nodes, (node.client.id.toNat : Int) ≤ (intMax - 10) / 3 := by
    decide +kernel
  refine ⟨?_, ?_, ?_, ?_, ids⟩
  · show settings.sessionTimeout ≤ intMax / 60
    rw [session]
    decide
  · show settings.preauthIdleTimeout ≤ intMax / 60
    rw [preauthIdle]
    decide
  · show settings.authIdleTimeout ≤ intMax / 60
    rw [authIdle]
    decide
  · show (settings.sessionLimitBlock.natAbs : Int) ≤ intMax / 1000
    rw [limit]
    decide

def longTimeoutLine : List Char := "SessionTimeout 71582789\n".toList

/-- A timeout of more than a hundred years is accepted, and ends sessions after 44 seconds. -/
theorem long_timeout_shortened :
    ∃ settings, Accepted (fun _ => false) [interfaceLine, longTimeoutLine] settings ∧
      toInt32 (60 * settings.sessionTimeout) = 44 ∧
      ¬ ExactProducts (settings.launch defaultLaunch) .init := by
  rcases exists_accepted (fun _ => false) [interfaceLine, longTimeoutLine]
    (fun settings => settings.sessionTimeout = 71582789) (by decide +kernel) with
    ⟨settings, accepted, stored⟩
  have timeout : settings.sessionTimeout = 71582789 := by simpa using stored
  have product : toInt32 (60 * settings.sessionTimeout) = 44 := by
    rw [timeout]
    decide
  refine ⟨settings, accepted, product, fun exact => ?_⟩
  have same : toInt32 (60 * settings.sessionTimeout) = 60 * settings.sessionTimeout :=
    exact.session
  rw [product, timeout] at same
  exact absurd same (by decide)

end Nodogsplash
