/-
What an attempt to connect leaves behind.

`tryRestoreConnection_spec` says when the attempt reaches which end and that
`connection_` is assigned in every one of them except where the JVM context
itself cannot be made. From it follow, for `Establish`, exactly when a failed
attempt can be retried and exactly when a rejected one keeps the stored
configuration.
-/
import DocumentDbOdbc.Connection
import DocumentDbOdbc.ConnectionStringFacts

namespace DocumentDbOdbc

namespace Connection

variable {H : Host} {s : Connection H} {w : World H}

/-! ## Conditions on the external steps -/

/-- Making the JVM context reports an error. -/
def ContextFails (s : Connection H) (w : World H) : Prop :=
  s.jniContext = false ∧ w.classpathFound = true ∧ w.createContext.1.code ≠ .success

/-- There is a JVM context, or one is made. -/
def ContextReady (s : Connection H) (w : World H) : Prop :=
  s.jniContext = true ∨
    w.classpathFound = true ∧ w.createContext.1.code = .success ∧ w.createContext.2 = true

def JdbcOpens (w : World H) (cfg : Configuration H) : Prop :=
  (w.driverManagerGetConnection cfg).code = .success ∧
    (w.driverManagerGetConnection cfg).errInfo.code = .success ∧
    (w.driverManagerGetConnection cfg).value = true

def TunnelKnown (w : World H) : Prop :=
  w.isSshTunnelActive.code = .success ∧
    (w.isSshTunnelActive.value = true → w.getSshLocalPort.code = .success)

def localPort (w : World H) : Int32 := if w.isSshTunnelActive.value then w.getSshLocalPort.value else 0

def MongoConnects (w : World H) (cfg : Configuration H) : Prop :=
  w.createClient cfg (localPort w) = .ok () ∧ w.ping cfg = .ok true ∧ w.updateSqlDbmsVerInfo = .ok ()

/-- A step of the MongoDB client throws what nobody catches. -/
def MongoRaises (w : World H) (cfg : Configuration H) : Prop :=
  w.createClient cfg (localPort w) = .error .other ∨
    w.createClient cfg (localPort w) = .ok () ∧
      (w.ping cfg = .error .other ∨ w.ping cfg = .ok true ∧ w.updateSqlDbmsVerInfo = .error .other)

/-- The steps before the MongoDB client. -/
def JdbcReady (s : Connection H) (w : World H) (cfg : Configuration H) : Prop :=
  ContextReady s w ∧ JdbcOpens w cfg ∧ TunnelKnown w

theorem JdbcReady.not_contextFails {cfg : Configuration H} (h : JdbcReady s w cfg) :
    ¬ ContextFails s w := by
  rintro ⟨hctx, -, hcode⟩
  rcases h.1 with h | h
  · rw [hctx] at h
    cases h
  · exact hcode h.2.1

/-! ## One attempt -/

theorem caught_ne_connected (e : MongoException) : caught e ≠ .connected := by
  cases e <;> simp [caught]

theorem caught_eq_raised {e : MongoException} : caught e = .raised ↔ e = .other := by
  cases e <;> simp [caught]

theorem connectCppDocumentDb_spec (s : Connection H) (w : World H) :
    let r := s.connectCppDocumentDb w (localPort w)
    r.1.config = s.config ∧ r.1.connection = s.connection ∧
    (r.2 = .connected ↔ MongoConnects w s.config) ∧ (r.2 = .raised ↔ MongoRaises w s.config) := by
  simp only [connectCppDocumentDb, MongoConnects, MongoRaises]
  cases w.createClient s.config (localPort w) with
  | error e => simp [caught_ne_connected, caught_eq_raised]
  | ok u =>
    cases w.ping s.config with
    | error e => simp [caught_ne_connected, caught_eq_raised]
    | ok answered =>
      cases answered with
      | false => simp
      | true =>
        cases w.updateSqlDbmsVerInfo with
        | error e => simp [caught_ne_connected, caught_eq_raised]
        | ok u => simp

theorem getInternalSshTunnelPort_eq_ok {port : Int32} :
    getInternalSshTunnelPort w = .ok port ↔ TunnelKnown w ∧ port = localPort w := by
  simp only [getInternalSshTunnelPort, TunnelKnown, localPort]
  by_cases hc : w.isSshTunnelActive.code = .success
  · cases hv : w.isSshTunnelActive.value with
    | false => simp [hc, eq_comm]
    | true =>
      by_cases hp : w.getSshLocalPort.code = .success
      · simp [hc, hp, eq_comm]
      · simp [hc, hp]
  · simp [hc]

theorem getJniContext_spec (s : Connection H) (w : World H) :
    (s.getJniContext w).1.config = s.config ∧ (s.getJniContext w).1.connection = s.connection ∧
    ((s.getJniContext w).2.1.code ≠ .success ↔ ContextFails s w) ∧
    (¬ ContextFails s w → ((s.getJniContext w).2.2 = true ↔ ContextReady s w)) := by
  simp only [getJniContext, ContextFails, ContextReady]
  cases s.jniContext with
  | true => simp
  | false =>
    cases w.classpathFound with
    | false => simp
    | true => simp +contextual

/-- The new connection is open and its error info clean exactly if there is a
context and the JDBC driver delivered. -/
theorem open_spec (w : World H) (context : Bool) (cfg : Configuration H) (errInfo : JniErrorInfo) :
    ((open_ w context cfg errInfo).2.2.isOpen && (open_ w context cfg errInfo).2.1.code == .success) = true ↔
      context = true ∧ JdbcOpens w cfg := by
  simp only [open_, JdbcOpens]
  cases context with
  | false => simp
  | true =>
    by_cases hc : (w.driverManagerGetConnection cfg).code = .success
    · simp [hc, and_comm]
    · simp [hc]

/-- **One attempt** from a disconnected state. -/
theorem tryRestoreConnection_spec (hs : s.connection = none) (w : World H) :
    let r := s.tryRestoreConnection w
    r.1.config = s.config ∧ (r.1.connection = none ↔ ContextFails s w) ∧
    (r.2 = .connected ↔ JdbcReady s w s.config ∧ MongoConnects w s.config) ∧
    (r.2 = .raised ↔ JdbcReady s w s.config ∧ MongoRaises w s.config) := by
  obtain ⟨hcfg, hconn, hfail, hready⟩ := getJniContext_spec s w
  have hnone : s.connection.isSome = false := by simp [hs]
  rw [tryRestoreConnection]
  simp only [hnone, Bool.false_eq_true, if_false]
  by_cases hf : ContextFails s w
  · have hno : ¬ JdbcReady s w s.config := fun h => h.not_contextFails hf
    simp [hfail.mpr hf, hf, hno, hcfg, hconn, hs]
  · have hok : (s.getJniContext w).2.1.code = .success := by
      by_contra h
      exact hf (hfail.mp h)
    simp only [hok, ne_eq, not_true_eq_false, if_false, hcfg]
    have hopen := open_spec w (s.getJniContext w).2.2 s.config (s.getJniContext w).2.1
    rw [hready hf] at hopen
    by_cases ho : ContextReady s w ∧ JdbcOpens w s.config
    · rw [hopen.mpr ho]
      simp only [Bool.not_true, Bool.false_eq_true, if_false]
      by_cases ht : TunnelKnown w
      · rw [getInternalSshTunnelPort_eq_ok.mpr ⟨ht, rfl⟩]
        have hcpp := connectCppDocumentDb_spec { (s.getJniContext w).1 with
          connection := some (open_ w (s.getJniContext w).2.2 s.config (s.getJniContext w).2.1).2.2 } w
        have hj : JdbcReady s w s.config := ⟨ho.1, ho.2, ht⟩
        simp only [hcfg] at hcpp
        simp only [hcpp, hf, hj, true_and, iff_false]
        simp
      · have hj : ¬ JdbcReady s w s.config := fun h => ht h.2.2
        cases hp : getInternalSshTunnelPort w with
        | ok port => exact absurd (getInternalSshTunnelPort_eq_ok.mp hp).1 ht
        | error e => simp [hf, hj]
    · have hj : ¬ JdbcReady s w s.config := fun h => ho ⟨h.1, h.2.1⟩
      rw [Bool.eq_false_iff.mpr (fun h => ho (hopen.mp h))]
      simp [hf, hj]

/-! ## Establish -/

/-- `AI_SUCCESS` or `AI_SUCCESS_WITH_INFO`. -/
def ReportsSuccess (result : Option SqlResult) : Prop :=
  result = some .success ∨ result = some .successWithInfo

instance (result : Option SqlResult) : Decidable (ReportsSuccess result) :=
  inferInstanceAs (Decidable (_ ∨ _))

/-- Whatever becomes of the attempt, its configuration is the stored one. -/
theorem establish_config (s : Connection H) (w : World H) (r : Request H) :
    (s.establish w r).state.config = (s.requested w r).1 := by
  simp only [establish, internalEstablish]
  split
  · rfl
  · next hs =>
    split
    · rfl
    · have hs : s.connection = none := by simpa using hs
      have hspec := tryRestoreConnection_spec (s := { s with config := (s.requested w r).1 }) hs w
      split <;> exact hspec.1

theorem establish_connected (hs : s.connection.isSome = true) (w : World H) (r : Request H) :
    (s.establish w r).result = some .error := by
  simp [establish, internalEstablish, hs]

theorem establish_invalid {r : Request H} {err : StatusRecord} (hs : s.connection = none)
    (hv : (s.requested w r).1.validate = .error err) :
    (s.establish w r).state.connection = none ∧ (s.establish w r).result = some .error := by
  simp [establish, internalEstablish, hs, hv]

/-- With a valid configuration, the end of the attempt decides. -/
theorem establish_valid {r : Request H} (hs : s.connection = none)
    (hv : (s.requested w r).1.validate = .ok ()) :
    ((s.establish w r).state.connection = none ↔ ContextFails s w) ∧
    (ReportsSuccess (s.establish w r).result ↔
      JdbcReady s w (s.requested w r).1 ∧ MongoConnects w (s.requested w r).1) ∧
    ((s.establish w r).result = some .error ↔
      ¬ (JdbcReady s w (s.requested w r).1 ∧
        (MongoConnects w (s.requested w r).1 ∨ MongoRaises w (s.requested w r).1))) := by
  have hspec := tryRestoreConnection_spec (s := { s with config := (s.requested w r).1 }) hs w
  obtain ⟨-, hconn, hok, hraise⟩ := hspec
  simp only [establish, internalEstablish, hs, hv, Option.isSome_none, Bool.false_eq_true, if_false]
  rw [hs] at hconn hok hraise
  rw [and_or_left]
  cases hr : (tryRestoreConnection
    ({ config := (s.requested w r).1, jniContext := s.jniContext, connection := none,
       mongoClient := s.mongoClient } : Connection H) w).2 with
  | connected =>
    refine ⟨hconn, iff_of_true ?_ (hok.mp hr), iff_of_false ?_ fun h => h (.inl (hok.mp hr))⟩
    · simp only [ReportsSuccess, Option.some.injEq]
      split <;> simp
    · simp only [Option.some.injEq]
      split <;> simp
  | failed err =>
    rw [hr] at hok hraise
    refine ⟨hconn, iff_of_false (by simp [ReportsSuccess]) fun h => ?_, iff_of_true rfl fun h => ?_⟩
    · cases hok.mpr h
    · rcases h with h | h
      · cases hok.mpr h
      · cases hraise.mpr h
  | raised =>
    rw [hr] at hok
    refine ⟨hconn, iff_of_false (by simp [ReportsSuccess]) fun h => ?_,
      iff_of_false (by simp) fun h => h (.inr (hraise.mp hr))⟩
    cases hok.mpr h

/-- From a disconnected state nobody is told that the connection is in use. -/
theorem establish_not_already_connected (hs : s.connection = none) (w : World H) (r : Request H) :
    ∀ rec ∈ (s.establish w r).records, rec.sqlState ≠ .s08002AlreadyConnected := by
  have hdiag : ∀ rec ∈ (s.requested w r).2, rec.sqlState ≠ .s08002AlreadyConnected := by
    intro rec hrec
    cases r with
    | cfg c => simp [requested] at hrec
    | connectStr str =>
      rw [ConnectionStringParser.parseConnectionString_records s.config str rec hrec]
      decide
  have hvalidate : ∀ err, (s.requested w r).1.validate = .error err →
      err.sqlState ≠ .s08002AlreadyConnected := by
    intro err herr
    simp only [Configuration.validate] at herr
    split at herr
    · cases herr
      decide
    · split at herr
      · cases herr
        decide
      · cases herr
  intro rec hrec
  simp only [establish, internalEstablish, hs, Option.isSome_none, Bool.false_eq_true, if_false] at hrec
  split at hrec
  · next err herr =>
    rcases List.mem_append.mp hrec with h | h
    · exact hdiag rec h
    · rw [List.mem_singleton.mp h]
      exact hvalidate err herr
  · split at hrec
    · exact hdiag rec hrec
    · rcases List.mem_append.mp hrec with h | h
      · exact hdiag rec h
      · rw [List.mem_singleton.mp h]
        simp
    · exact hdiag rec hrec

/-! ## Retrying -/

/-- Disconnected for all who look: the pointer, a later attempt, and
`SQL_ATTR_CONNECTION_DEAD`. -/
def LeftDisconnected (s : Connection H) : Prop :=
  s.connection = none ∧
  (∀ (w : World H) (r : Request H), ∀ rec ∈ (s.establish w r).records,
    rec.sqlState ≠ .s08002AlreadyConnected) ∧
  s.connectionDead = 1

theorem leftDisconnected_iff : LeftDisconnected s ↔ s.connection = none := by
  refine ⟨fun h => h.1, fun h => ⟨h, establish_not_already_connected h, ?_⟩⟩
  simp [connectionDead, h]

/-- **When a failed attempt can be retried.** -/
theorem establish_retry_iff (hs : s.connection = none) (w : World H) (r : Request H) :
    ((¬ ReportsSuccess (s.establish w r).result → LeftDisconnected (s.establish w r).state) ↔
      (s.requested w r).1.validate ≠ .ok () ∨ ContextFails s w ∨
        JdbcReady s w (s.requested w r).1 ∧ MongoConnects w (s.requested w r).1) ∧
    (((s.tryRestoreConnection w).2 ≠ .connected → LeftDisconnected (s.tryRestoreConnection w).1) ↔
      ContextFails s w ∨ JdbcReady s w s.config ∧ MongoConnects w s.config) := by
  refine ⟨?_, ?_⟩
  · rw [leftDisconnected_iff]
    cases hv : (s.requested w r).1.validate with
    | error err =>
      refine iff_of_true (fun _ => (establish_invalid hs hv).1) (.inl (by simp))
    | ok u =>
      obtain ⟨hconn, hok, -⟩ := establish_valid hs hv
      rw [hconn, hok]
      simp only [ne_eq, not_true_eq_false, false_or]
      exact ⟨fun h => or_iff_not_imp_right.mpr h, fun h hn => h.resolve_right hn⟩
  · obtain ⟨-, hconn, hok, -⟩ := tryRestoreConnection_spec hs w
    rw [leftDisconnected_iff, hconn, ne_eq, hok]
    exact ⟨fun h => or_iff_not_imp_right.mpr h, fun h hn => h.resolve_right hn⟩

theorem establish_retry_no_context :
    LeftDisconnected ((init .diskless).establish
      { World.reachable _ with createContext := ({ code := .jvmInit }, false) }
      (.connectStr (ascii "hostname=h;user=u;password=p;database=d"))).state :=
  ((establish_retry_iff rfl _ _).1.mpr (.inr (.inl ⟨rfl, rfl, by decide⟩))) (by decide)

/-- A server that does not answer the ping leaves a connection behind that is
not dead and in the way of the next attempt. -/
theorem establish_ping_refused :
    let request := Request.connectStr (ascii "hostname=h;user=u;password=p;database=d")
    let e := (init .diskless).establish { World.reachable _ with ping := fun _ => .ok false } request
    (init .diskless).connection = none ∧ e.result = some .error ∧ e.state.connection = some ⟨true⟩ ∧
    e.state.connectionDead = 0 ∧
    SqlState.s08002AlreadyConnected ∈
      (e.state.establish (.reachable _) request).records.map (·.sqlState) := by
  decide

/-! ## Keeping the configuration -/

/-- A rejected attempt leaves the stored configuration alone, so that no later
one sees what it brought. -/
def KeepsConfig (s : Connection H) (w : World H) (r : Request H) : Prop :=
  (s.establish w r).result = some .error →
    (s.establish w r).state.config = s.config ∧
    ∀ (w' : World H) (r' : Request H), (s.establish w r).state.requested w' r' = s.requested w' r'

/-- The attempt gets through, or dies of an exception. -/
def NotRejected (s : Connection H) (w : World H) (cfg : Configuration H) : Prop :=
  s.connection = none ∧ cfg.validate = .ok () ∧ JdbcReady s w cfg ∧
    (MongoConnects w cfg ∨ MongoRaises w cfg)

theorem establish_error_iff (s : Connection H) (w : World H) (r : Request H) :
    (s.establish w r).result = some .error ↔ ¬ NotRejected s w (s.requested w r).1 := by
  cases hs : s.connection with
  | some conn =>
    refine iff_of_true (establish_connected (by simp [hs]) w r) fun h => ?_
    rw [NotRejected, hs] at h
    cases h.1
  | none =>
    cases hv : (s.requested w r).1.validate with
    | error err =>
      refine iff_of_true (establish_invalid hs hv).2 fun h => ?_
      rw [NotRejected, hv] at h
      cases h.2.1
    | ok u =>
      rw [(establish_valid hs hv).2.2, NotRejected]
      simp [hs, hv]

theorem requested_congr {s' : Connection H} (h : s.config = s'.config) (w : World H) (r : Request H) :
    s.requested w r = s'.requested w r := by
  cases r with
  | cfg c => rfl
  | connectStr str => simp only [requested, h]

/-- **When a rejected attempt keeps the configuration.** -/
theorem establish_keepsConfig_iff (s : Connection H) (w : World H) (r : Request H) :
    KeepsConfig s w r ↔ NotRejected s w (s.requested w r).1 ∨ (s.requested w r).1 = s.config := by
  rw [KeepsConfig, establish_error_iff, establish_config]
  refine ⟨fun h => or_iff_not_imp_left.mpr fun hn => (h hn).1, fun h hn => ?_⟩
  have hcfg := h.resolve_left hn
  exact ⟨hcfg, requested_congr ((establish_config s w r).trans hcfg)⟩

/-- The user name of an attempt that named no host is still there when the
next attempt names the rest. -/
theorem establish_leftover_user :
    let e := (init .diskless).establish (.reachable _) (.connectStr (ascii "user=eve"))
    e.result = some .error ∧ e.state.config.getUser = ascii "eve" ∧
    ((init .diskless).establish (.reachable _)
      (.connectStr (ascii "hostname=h;password=p;database=d"))).result = some .error ∧
    (e.state.establish (.reachable _)
      (.connectStr (ascii "hostname=h;password=p;database=d"))).result = some .success := by
  decide

end Connection

end DocumentDbOdbc
