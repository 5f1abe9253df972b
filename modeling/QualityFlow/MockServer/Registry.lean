/-
# The registry of running mock servers

`MockServerRuntimeRegistry` of
`app/mock_servers/services/runtime/mock_server_runtime_registry.py`, with
`load_runtime_server` of `app/mock_servers/services/runtime/mock_runtime_loader.py`, and the
listeners of `app/mock_servers/services/runtime/mock_queue_listener_thread.py`.

Each call is one step: the maps are changed under the lock of the class.  What a call finds
outside is given for it: the rows of the server, whether each of its listeners can be
constructed and started, and whether the log can be written.  A listener is the number of
its start, and is no longer alive once it has been stopped and joined.
-/

import Mathlib.Data.List.Sort
import Mathlib.Logic.Function.Basic
import QualityFlow.Py.Str

namespace QualityFlow
namespace MockServer

open Py

/-! ### Servers -/

/-- `_normalize_endpoint`. -/
def normalizeEndpoint (endpoint : String) : String := lower (stripChar '/' (strip endpoint))

/-- `MockQueueBinding`. -/
structure MockQueueBinding where
  id : String
  order : ℤ
  queueId : String

/-- `MockServerEntity`, with the rows of its queues. -/
structure MockServerEntity where
  endpoint : String
  queues : List MockQueueBinding

/-- `MockRuntimeServer`. -/
structure MockRuntimeServer where
  endpoint : String
  queues : List MockQueueBinding

/-- The order of the bindings of a server. -/
def MockQueueBinding.le (a b : MockQueueBinding) : Prop :=
  a.order < b.order ∨ a.order = b.order ∧ a.id ≤ b.id

instance : DecidableRel MockQueueBinding.le := fun _ _ => inferInstanceAs (Decidable (_ ∨ _))

/-- `load_runtime_server`. -/
def loadRuntimeServer (entity : MockServerEntity) : MockRuntimeServer where
  endpoint := normalizeEndpoint entity.endpoint
  queues := entity.queues.insertionSort MockQueueBinding.le

/-- A listener, by the number of its start. -/
abbrev Listener := ℕ

/-- The three maps of the registry, the listeners that are alive, and how many have been
started. -/
structure Registry where
  serversById : String → Option MockRuntimeServer
  serverIdsByEndpoint : String → Option String
  queueThreadsByServerId : String → Option (List Listener)
  alive : List Listener
  started : ℕ

def Registry.empty : Registry where
  serversById _ := none
  serverIdsByEndpoint _ := none
  queueThreadsByServerId _ := none
  alive := []
  started := 0

/-! ### Starting and stopping -/

/-- What a call of `start_server` finds outside. -/
structure StartEnv where
  /-- The rows of the server, or what reading them raises. -/
  load : Except String MockServerEntity
  /-- What constructing and starting the listener at a position does. -/
  listen : ℕ → Except String Unit
  log : Except String Unit

namespace Registry

open Function

/-- `_stop_server_locked`. -/
def stopServerLocked (mockServerId : String) (r : Registry) : Registry :=
  { r with
    serversById := update r.serversById mockServerId none
    serverIdsByEndpoint :=
      match r.serversById mockServerId with
      | some runtimeServer =>
        let endpoint := normalizeEndpoint runtimeServer.endpoint
        if r.serverIdsByEndpoint endpoint = some mockServerId then
          update r.serverIdsByEndpoint endpoint none
        else r.serverIdsByEndpoint
      | none => r.serverIdsByEndpoint
    queueThreadsByServerId := update r.queueThreadsByServerId mockServerId none
    alive := r.alive.filter fun l => l ∉ (r.queueThreadsByServerId mockServerId).getD [] }

/-- Registers a server and its endpoint. -/
def register (mockServerId : String) (runtimeServer : MockRuntimeServer) (r : Registry) :
    Registry :=
  { r with
    serversById := update r.serversById mockServerId (some runtimeServer)
    serverIdsByEndpoint :=
      update r.serverIdsByEndpoint runtimeServer.endpoint (some mockServerId) }

/-- The loop over the bindings: the listeners it has started, or what it raises. -/
def startListeners (listen : ℕ → Except String Unit) :
    ℕ → List MockQueueBinding → Registry → Except String (List Listener) × Registry
  | _, [], r => (.ok [], r)
  | i, _ :: bindings, r =>
    match listen i with
    | .error e => (.error e, r)
    | .ok () =>
      let r' := { r with alive := r.alive ++ [r.started], started := r.started + 1 }
      match startListeners listen (i + 1) bindings r' with
      | (.error e, r'') => (.error e, r'')
      | (.ok threads, r'') => (.ok (r.started :: threads), r'')

/-- Records the listeners of a server. -/
def record (mockServerId : String) (threads : List Listener) (r : Registry) : Registry :=
  { r with queueThreadsByServerId := update r.queueThreadsByServerId mockServerId (some threads) }

/-- `start_server`. -/
def startServer (mockServerId : String) (env : StartEnv) (r : Registry) :
    Except String Unit × Registry :=
  match env.load with
  | .error e => (.error e, r)
  | .ok entity =>
    let runtimeServer := loadRuntimeServer entity
    match startListeners env.listen 0 runtimeServer.queues
        ((r.stopServerLocked mockServerId).register mockServerId runtimeServer) with
    | (.error e, r') => (.error e, r')
    | (.ok threads, r') => (env.log, r'.record mockServerId threads)

/-- `stop_server`. -/
def stopServer (mockServerId : String) (log : Except String Unit) (r : Registry) :
    Except String Unit × Registry :=
  (log, r.stopServerLocked mockServerId)

end Registry

/-! ### Calls -/

inductive Call where
  | start (mockServerId : String) (env : StartEnv)
  | stop (mockServerId : String) (log : Except String Unit)

def Registry.call (r : Registry) : Call → Except String Unit × Registry
  | .start mockServerId env => r.startServer mockServerId env
  | .stop mockServerId log => r.stopServer mockServerId log

/-- An endpoint is that of a server just where the server is registered with it, and every
listener that is alive is recorded under a registered server. -/
structure Registry.Consistent (r : Registry) : Prop where
  endpoints : ∀ endpoint mockServerId, r.serverIdsByEndpoint endpoint = some mockServerId ↔
    ∃ server, r.serversById mockServerId = some server ∧ server.endpoint = endpoint
  recorded : ∀ l ∈ r.alive, ∃ mockServerId server threads,
    r.serversById mockServerId = some server ∧
      r.queueThreadsByServerId mockServerId = some threads ∧ l ∈ threads

/-- What a start that has raised leaves behind: its server is not registered, and none of
the listeners it has started is alive. -/
def Registry.Undone (r r' : Registry) (mockServerId : String) : Prop :=
  r'.serversById mockServerId = none ∧ ∀ l ∈ r'.alive, l < r.started

/-- The registry is consistent after the call, and a start that has raised is undone. -/
def Registry.CallHolds (r : Registry) (c : Call) : Prop :=
  (r.call c).2.Consistent ∧
    ∀ mockServerId env, c = .start mockServerId env → ∀ e, (r.call c).1 = .error e →
      r.Undone (r.call c).2 mockServerId

/-- It holds for each call of a run. -/
def Registry.RunHolds : Registry → List Call → Prop
  | _, [] => True
  | r, c :: calls => r.CallHolds c ∧ (r.call c).2.RunHolds calls

/-- No two servers have one endpoint: that of a server that is started is not the endpoint
of another that is registered. -/
def Registry.Distinct (r : Registry) : Call → Prop
  | .start mockServerId env => ∀ entity, env.load = .ok entity →
      ∀ other server, r.serversById other = some server →
        server.endpoint = normalizeEndpoint entity.endpoint → other = mockServerId
  | .stop _ _ => True

def Registry.DistinctRun : Registry → List Call → Prop
  | _, [] => True
  | r, c :: calls => r.Distinct c ∧ (r.call c).2.DistinctRun calls

/-- A registered server is found again by its endpoint when it is stopped: normalizing the
endpoint once more changes nothing. -/
def Registry.Removable (r : Registry) (mockServerId : String) : Prop :=
  ∀ server, r.serversById mockServerId = some server →
    normalizeEndpoint server.endpoint = server.endpoint

/-- Nothing goes wrong in a call: a start that cannot read its rows is not a restart; one
that can constructs and starts all its listeners and writes its log; and a server that is
stopped, or restarted with another endpoint, can be removed. -/
def Registry.Smooth (r : Registry) : Call → Prop
  | .start mockServerId env =>
    match env.load with
    | .error _ => r.serversById mockServerId = none
    | .ok entity =>
      (∀ i < entity.queues.length, env.listen i = .ok ()) ∧ env.log = .ok () ∧
        ((∃ server, r.serversById mockServerId = some server ∧
            server.endpoint = normalizeEndpoint entity.endpoint) ∨ r.Removable mockServerId)
  | .stop mockServerId _ => r.Removable mockServerId

def Registry.SmoothRun : Registry → List Call → Prop
  | _, [] => True
  | r, c :: calls => r.Smooth c ∧ (r.call c).2.SmoothRun calls

/-! ### What each step does -/

namespace Registry

open Function

variable {r : Registry} {mockServerId : String}

/-- The endpoints after a stop: those of the other servers, and that of a server that
cannot be removed. -/
theorem endpoints_stop (hr : r.Consistent) (endpoint other : String) :
    (r.stopServerLocked mockServerId).serverIdsByEndpoint endpoint = some other ↔
      ∃ server, r.serversById other = some server ∧ server.endpoint = endpoint ∧
        (other = mockServerId → normalizeEndpoint endpoint ≠ endpoint) := by
  unfold stopServerLocked
  cases hserver : r.serversById mockServerId with
  | none =>
    rw [hr.endpoints]
    refine exists_congr fun server => and_congr_right fun hother => ?_
    refine (and_iff_left ?_).symm
    rintro rfl
    exact absurd (hserver.symm.trans hother) (by simp)
  | some running =>
    simp only
    split
    · -- the endpoint is found, and so normalizing it has changed nothing
      rename_i hfound
      obtain ⟨server, hsame, hstable⟩ := (hr.endpoints _ _).1 hfound
      obtain rfl : running = server := Option.some.inj (hserver.symm.trans hsame)
      rw [← hstable] at hfound ⊢
      by_cases hendpoint : endpoint = running.endpoint
      · subst hendpoint
        rw [update_self]
        refine iff_of_false (by simp) ?_
        rintro ⟨server, hother, hsame', hnot⟩
        have hmapped := (hr.endpoints _ _).2 ⟨server, hother, hsame'⟩
        exact hnot (Option.some.inj (hmapped.symm.trans hfound)) hstable.symm
      · rw [update_of_ne hendpoint, hr.endpoints]
        refine exists_congr fun server => and_congr_right fun hother => ?_
        refine (and_iff_left_of_imp fun hsame' => ?_).symm
        rintro rfl
        obtain rfl : running = server := Option.some.inj (hserver.symm.trans hother)
        exact absurd hsame'.symm hendpoint
    · rename_i hlost
      rw [hr.endpoints]
      refine exists_congr fun server => and_congr_right fun hother => ?_
      refine (and_iff_left_of_imp fun hsame' => ?_).symm
      rintro rfl hstable
      obtain rfl : running = server := Option.some.inj (hserver.symm.trans hother)
      rw [hsame', hstable] at hlost
      exact hlost ((hr.endpoints _ _).2 ⟨running, hserver, hsame'⟩)

/-- A listener that is alive after a stop is recorded under another server. -/
theorem recorded_stop (hr : r.Consistent) {l : Listener}
    (hl : l ∈ (r.stopServerLocked mockServerId).alive) :
    ∃ other server threads, other ≠ mockServerId ∧ r.serversById other = some server ∧
      r.queueThreadsByServerId other = some threads ∧ l ∈ threads := by
  obtain ⟨halive, hkept⟩ := List.mem_filter.1 hl
  obtain ⟨other, server, threads, hserver, hthreads, hmem⟩ := hr.recorded l halive
  refine ⟨other, server, threads, ?_, hserver, hthreads, hmem⟩
  rintro rfl
  rw [hthreads, Option.getD_some] at hkept
  exact absurd hmem (by simpa using hkept)

/-- What the loop over the bindings leaves as it was. -/
theorem startListeners_serversById (listen : ℕ → Except String Unit) (i : ℕ)
    (bindings : List MockQueueBinding) (r : Registry) :
    (startListeners listen i bindings r).2.serversById = r.serversById := by
  induction bindings generalizing i r with
  | nil => rfl
  | cons binding bindings ih =>
    rw [startListeners]
    split
    · rfl
    · have hrest := ih (i + 1) { r with alive := r.alive ++ [r.started], started := r.started + 1 }
      simp only
      split <;> rename_i h <;> rw [h] at hrest <;> exact hrest

/-- A loop that comes to its end has started every listener, and changed nothing else. -/
theorem startListeners_ok {listen : ℕ → Except String Unit} {i : ℕ}
    {bindings : List MockQueueBinding} {r r' : Registry} {threads : List Listener}
    (h : startListeners listen i bindings r = (.ok threads, r')) :
    r' = { r with alive := r.alive ++ threads, started := r.started + bindings.length } ∧
      ∀ k < bindings.length, listen (i + k) = .ok () := by
  induction bindings generalizing i r threads with
  | nil =>
    obtain ⟨hthreads, rfl⟩ := Prod.mk.inj h
    obtain rfl := Except.ok.inj hthreads
    refine ⟨?_, fun k hk => absurd hk (Nat.not_lt_zero k)⟩
    rw [List.append_nil]
    rfl
  | cons binding bindings ih =>
    rw [startListeners] at h
    split at h
    · exact absurd h (by simp)
    · rename_i hlisten
      simp only at h
      split at h
      · exact absurd h (by simp)
      · rename_i threads' r'' hrest
        obtain ⟨hthreads, rfl⟩ := Prod.mk.inj h
        obtain rfl := Except.ok.inj hthreads
        obtain ⟨rfl, hlistens⟩ := ih hrest
        refine ⟨?_, ?_⟩
        · simp only [List.append_assoc, List.singleton_append, List.length_cons]
          congr 1
          omega
        · intro k hk
          cases k with
          | zero => exact hlisten
          | succ k =>
            rw [List.length_cons] at hk
            have hk := hlistens k (by omega)
            rw [show i + (k + 1) = i + 1 + k by omega]
            exact hk

/-- A loop none of whose listeners raises comes to its end. -/
theorem startListeners_of_listens (listen : ℕ → Except String Unit) (i : ℕ)
    (bindings : List MockQueueBinding) (r : Registry)
    (h : ∀ k < bindings.length, listen (i + k) = .ok ()) :
    ∃ threads r', startListeners listen i bindings r = (.ok threads, r') := by
  induction bindings generalizing i r with
  | nil => exact ⟨[], r, rfl⟩
  | cons binding bindings ih =>
    have hfirst : listen i = .ok () := h 0 (Nat.zero_lt_succ _)
    obtain ⟨threads, r', hrest⟩ := ih (i + 1)
      { r with alive := r.alive ++ [r.started], started := r.started + 1 } fun k hk => by
        rw [show i + 1 + k = i + (k + 1) by omega]
        exact h (k + 1) (Nat.succ_lt_succ hk)
    refine ⟨r.started :: threads, r', ?_⟩
    rw [startListeners, hfirst]
    simp only [hrest]

/-- The registry after a start that has come to its end. -/
def restarted (r : Registry) (mockServerId : String) (runtimeServer : MockRuntimeServer)
    (threads : List Listener) (started : ℕ) : Registry where
  serversById := update r.serversById mockServerId (some runtimeServer)
  serverIdsByEndpoint := update (r.stopServerLocked mockServerId).serverIdsByEndpoint
    runtimeServer.endpoint (some mockServerId)
  queueThreadsByServerId := update r.queueThreadsByServerId mockServerId (some threads)
  alive := (r.stopServerLocked mockServerId).alive ++ threads
  started := started

theorem startServer_ok {env : StartEnv} {entity : MockServerEntity} (hload : env.load = .ok entity)
    (hlistens : ∀ i < entity.queues.length, env.listen i = .ok ()) :
    ∃ threads started, r.call (.start mockServerId env)
      = (env.log, r.restarted mockServerId (loadRuntimeServer entity) threads started) := by
  have hlength : (loadRuntimeServer entity).queues.length = entity.queues.length :=
    List.length_insertionSort _ _
  obtain ⟨threads, r', hstart⟩ := startListeners_of_listens env.listen 0
    (loadRuntimeServer entity).queues
    ((r.stopServerLocked mockServerId).register mockServerId (loadRuntimeServer entity))
    (fun k hk => by
      rw [Nat.zero_add]
      exact hlistens k (hlength ▸ hk))
  obtain ⟨rfl, -⟩ := startListeners_ok hstart
  refine ⟨threads, r.started + (loadRuntimeServer entity).queues.length, ?_⟩
  simp only [Registry.call, startServer, hload, hstart]
  simp only [record, register, stopServerLocked, restarted, update_idem]

/-- The endpoints after a start. -/
theorem endpoints_start (hr : r.Consistent) {entity : MockServerEntity}
    (hdistinct : ∀ other server, r.serversById other = some server →
      server.endpoint = normalizeEndpoint entity.endpoint → other = mockServerId)
    (hold : (∃ server, r.serversById mockServerId = some server ∧
      server.endpoint = normalizeEndpoint entity.endpoint) ∨ r.Removable mockServerId)
    (threads : List Listener) (started : ℕ) (endpoint other : String) :
    (r.restarted mockServerId (loadRuntimeServer entity) threads started).serverIdsByEndpoint
        endpoint = some other ↔
      ∃ server, (r.restarted mockServerId (loadRuntimeServer entity) threads started).serversById
          other = some server ∧ server.endpoint = endpoint := by
  unfold restarted
  dsimp only
  by_cases hother : other = mockServerId
  · subst hother
    rw [update_self]
    by_cases hendpoint : endpoint = (loadRuntimeServer entity).endpoint
    · subst hendpoint
      refine iff_of_true ?_ ⟨_, rfl, rfl⟩
      rw [update_self]
    · rw [update_of_ne hendpoint, endpoints_stop hr]
      refine iff_of_false ?_ ?_
      · rintro ⟨server, hserver, rfl, hlost⟩
        rcases hold with ⟨server', hserver', hsame⟩ | hremovable
        · obtain rfl := Option.some.inj (hserver.symm.trans hserver')
          exact hendpoint hsame
        · exact hlost rfl (hremovable server hserver)
      · rintro ⟨server, hserver, rfl⟩
        obtain rfl := Option.some.inj hserver
        exact hendpoint rfl
  · rw [update_of_ne hother]
    by_cases hendpoint : endpoint = (loadRuntimeServer entity).endpoint
    · subst hendpoint
      rw [update_self]
      refine iff_of_false (fun h => hother (Option.some.inj h).symm) ?_
      rintro ⟨server, hserver, hsame⟩
      exact hother (hdistinct other server hserver hsame)
    · rw [update_of_ne hendpoint, endpoints_stop hr]
      refine exists_congr fun server => and_congr_right fun _ => ?_
      exact and_iff_left fun h => absurd h hother

/-- The listeners that are alive have been started. -/
def Fresh (r : Registry) : Prop := ∀ l ∈ r.alive, l < r.started

theorem startListeners_fresh (listen : ℕ → Except String Unit) (i : ℕ)
    (bindings : List MockQueueBinding) {r : Registry} (hfresh : r.Fresh) :
    (startListeners listen i bindings r).2.Fresh := by
  induction bindings generalizing i r with
  | nil => exact hfresh
  | cons binding bindings ih =>
    rw [startListeners]
    split
    · exact hfresh
    · have hstarted : ({ r with alive := r.alive ++ [r.started], started := r.started + 1 } :
          Registry).Fresh := by
        intro l hl
        rcases List.mem_append.1 hl with hl | hl
        · exact (hfresh l hl).trans (Nat.lt_succ_self _)
        · rw [List.mem_singleton.1 hl]
          exact Nat.lt_succ_self _
      have hrest := ih (i + 1) hstarted
      simp only
      split <;> rename_i h <;> rw [h] at hrest <;> exact hrest

theorem Fresh.stop (hfresh : r.Fresh) (mockServerId : String) :
    (r.stopServerLocked mockServerId).Fresh :=
  fun l hl => hfresh l (List.mem_of_mem_filter hl)

theorem Fresh.call (hfresh : r.Fresh) (c : Call) : (r.call c).2.Fresh := by
  cases c with
  | stop mockServerId log => exact hfresh.stop mockServerId
  | start mockServerId env =>
    simp only [Registry.call, startServer]
    split
    · exact hfresh
    · rename_i entity _
      have hregistered : ((r.stopServerLocked mockServerId).register mockServerId
          (loadRuntimeServer entity)).Fresh := hfresh.stop mockServerId
      have hstarted := startListeners_fresh env.listen 0 (loadRuntimeServer entity).queues
        hregistered
      split <;> rename_i h <;> rw [h] at hstarted <;> exact hstarted

/-! ### A call that goes well, and one that does not -/

theorem Consistent.stop (hr : r.Consistent) (hremovable : r.Removable mockServerId) :
    (r.stopServerLocked mockServerId).Consistent where
  endpoints endpoint other := by
    rw [endpoints_stop hr]
    refine exists_congr fun server => ?_
    have hbyId : (r.stopServerLocked mockServerId).serversById
        = update r.serversById mockServerId none := rfl
    rw [hbyId]
    by_cases hother : other = mockServerId
    · subst hother
      rw [update_self]
      refine iff_of_false ?_ (by simp)
      rintro ⟨hserver, rfl, hlost⟩
      exact hlost rfl (hremovable server hserver)
    · rw [update_of_ne hother]
      exact and_congr_right fun _ => and_iff_left fun h => absurd h hother
  recorded l hl := by
    obtain ⟨other, server, threads, hother, hserver, hthreads, hmem⟩ := recorded_stop hr hl
    refine ⟨other, server, threads, ?_, ?_, hmem⟩
    · exact (update_of_ne hother ..).trans hserver
    · exact (update_of_ne hother ..).trans hthreads

theorem Consistent.start (hr : r.Consistent) {entity : MockServerEntity}
    (hdistinct : ∀ other server, r.serversById other = some server →
      server.endpoint = normalizeEndpoint entity.endpoint → other = mockServerId)
    (hold : (∃ server, r.serversById mockServerId = some server ∧
      server.endpoint = normalizeEndpoint entity.endpoint) ∨ r.Removable mockServerId)
    (threads : List Listener) (started : ℕ) :
    (r.restarted mockServerId (loadRuntimeServer entity) threads started).Consistent where
  endpoints := endpoints_start hr hdistinct hold threads started
  recorded l hl := by
    rcases List.mem_append.1 hl with hl | hl
    · obtain ⟨other, server, threads', hother, hserver, hthreads, hmem⟩ := recorded_stop hr hl
      refine ⟨other, server, threads', ?_, ?_, hmem⟩
      · exact (update_of_ne hother ..).trans hserver
      · exact (update_of_ne hother ..).trans hthreads
    · exact ⟨mockServerId, loadRuntimeServer entity, threads, update_self .., update_self .., hl⟩

theorem callHolds_stop_iff (hr : r.Consistent) (log : Except String Unit) :
    r.CallHolds (.stop mockServerId log) ↔ r.Removable mockServerId := by
  constructor
  · rintro ⟨hafter, -⟩ server hserver
    by_contra hlost
    have hmapped : (r.stopServerLocked mockServerId).serverIdsByEndpoint server.endpoint
        = some mockServerId :=
      (endpoints_stop hr server.endpoint mockServerId).2 ⟨server, hserver, rfl, fun _ => hlost⟩
    obtain ⟨server', hserver', -⟩ := (hafter.endpoints _ _).1 hmapped
    exact absurd ((update_self ..).symm.trans hserver') (by simp)
  · intro hremovable
    exact ⟨hr.stop hremovable, fun _ _ h => absurd h (by simp)⟩

theorem callHolds_start_error_iff (hr : r.Consistent) (hfresh : r.Fresh) {env : StartEnv}
    {e : String} (hload : env.load = .error e) :
    r.CallHolds (.start mockServerId env) ↔ r.serversById mockServerId = none := by
  have hcall : r.call (.start mockServerId env) = (.error e, r) := by
    simp only [Registry.call, startServer, hload]
  unfold CallHolds
  rw [hcall]
  constructor
  · rintro ⟨-, hundone⟩
    exact (hundone mockServerId env rfl e rfl).1
  · intro hnone
    refine ⟨hr, ?_⟩
    rintro mockServerId' env' h - -
    obtain ⟨rfl, -⟩ := Call.start.inj h
    exact ⟨hnone, hfresh⟩

/-- A start that has read its rows leaves its server registered, whatever it raises. -/
theorem serversById_start {env : StartEnv} {entity : MockServerEntity}
    (hload : env.load = .ok entity) :
    (r.call (.start mockServerId env)).2.serversById mockServerId
      = some (loadRuntimeServer entity) := by
  have hloop := startListeners_serversById env.listen 0 (loadRuntimeServer entity).queues
    ((r.stopServerLocked mockServerId).register mockServerId (loadRuntimeServer entity))
  simp only [Registry.call, startServer, hload]
  split <;> rename_i h <;> rw [h] at hloop
  · exact (congrFun hloop _).trans (update_self ..)
  · exact (congrFun hloop _).trans (update_self ..)

/-- It leaves the other servers registered as they were. -/
theorem serversById_start_of_ne {other : String} (hne : other ≠ mockServerId) (env : StartEnv) :
    (r.call (.start mockServerId env)).2.serversById other = r.serversById other := by
  simp only [Registry.call, startServer]
  split
  · rfl
  · rename_i entity _
    have hloop := startListeners_serversById env.listen 0 (loadRuntimeServer entity).queues
      ((r.stopServerLocked mockServerId).register mockServerId (loadRuntimeServer entity))
    have hother : ((r.stopServerLocked mockServerId).register mockServerId
        (loadRuntimeServer entity)).serversById other = r.serversById other := by
      simp only [register, stopServerLocked, update_idem]
      exact update_of_ne hne ..
    split <;> rename_i h <;> rw [h] at hloop <;> exact (congrFun hloop other).trans hother

/-- One that returns has started every listener. -/
theorem listens_of_start {env : StartEnv} {entity : MockServerEntity}
    (hload : env.load = .ok entity)
    (hreturned : ∀ e, (r.call (.start mockServerId env)).1 ≠ .error e) :
    ∀ i < entity.queues.length, env.listen i = .ok () := by
  have hlength : (loadRuntimeServer entity).queues.length = entity.queues.length :=
    List.length_insertionSort _ _
  rcases hstart : startListeners env.listen 0 (loadRuntimeServer entity).queues
    ((r.stopServerLocked mockServerId).register mockServerId (loadRuntimeServer entity))
    with ⟨result, r'⟩
  cases result with
  | error e =>
    refine absurd ?_ (hreturned e)
    simp only [Registry.call, startServer, hload, hstart]
  | ok threads =>
    intro i hi
    have hlisten := (startListeners_ok hstart).2 i (hlength.symm ▸ hi)
    rwa [Nat.zero_add] at hlisten

theorem callHolds_start_ok_iff (hr : r.Consistent) {env : StartEnv} {entity : MockServerEntity}
    (hload : env.load = .ok entity)
    (hdistinct : ∀ other server, r.serversById other = some server →
      server.endpoint = normalizeEndpoint entity.endpoint → other = mockServerId) :
    r.CallHolds (.start mockServerId env) ↔
      (∀ i < entity.queues.length, env.listen i = .ok ()) ∧ env.log = .ok () ∧
        ((∃ server, r.serversById mockServerId = some server ∧
            server.endpoint = normalizeEndpoint entity.endpoint) ∨ r.Removable mockServerId) := by
  constructor
  · rintro ⟨hafter, hundone⟩
    have hreturned : ∀ e, (r.call (.start mockServerId env)).1 ≠ .error e := by
      intro e he
      have hnone := (hundone mockServerId env rfl e he).1
      exact absurd ((serversById_start hload).symm.trans hnone) (by simp)
    have hlistens := listens_of_start hload hreturned
    obtain ⟨threads, started, hcall⟩ : ∃ threads started, r.call (.start mockServerId env)
        = (env.log, r.restarted mockServerId (loadRuntimeServer entity) threads started) :=
      startServer_ok hload hlistens
    rw [hcall] at hafter hreturned
    have hlog : env.log = .ok () := by
      cases hlog : env.log with
      | ok => rfl
      | error e => exact absurd hlog (hreturned e)
    refine ⟨hlistens, hlog, or_iff_not_imp_left.2 fun hmoved server hserver => ?_⟩
    -- the endpoint of before is still mapped to the server, and it is not the one of now
    by_contra hlost
    have hmapped : (r.stopServerLocked mockServerId).serverIdsByEndpoint server.endpoint
        = some mockServerId :=
      (endpoints_stop hr server.endpoint mockServerId).2 ⟨server, hserver, rfl, fun _ => hlost⟩
    have hne : server.endpoint ≠ (loadRuntimeServer entity).endpoint :=
      fun hsame => hmoved ⟨server, hserver, hsame⟩
    have hstill : (r.restarted mockServerId (loadRuntimeServer entity) threads
        started).serverIdsByEndpoint server.endpoint = some mockServerId := by
      unfold restarted
      dsimp only
      rw [update_of_ne hne]
      exact hmapped
    obtain ⟨server', hserver', hsame⟩ := (hafter.endpoints server.endpoint mockServerId).1 hstill
    unfold restarted at hserver'
    dsimp only at hserver'
    rw [update_self] at hserver'
    obtain rfl := Option.some.inj hserver'
    exact hne hsame.symm
  · rintro ⟨hlistens, hlog, hold⟩
    obtain ⟨threads, started, hcall⟩ : ∃ threads started, r.call (.start mockServerId env)
        = (env.log, r.restarted mockServerId (loadRuntimeServer entity) threads started) :=
      startServer_ok hload hlistens
    unfold CallHolds
    rw [hcall]
    refine ⟨hr.start hdistinct hold threads started, ?_⟩
    rintro - - - e he
    exact absurd (hlog.symm.trans he) (by simp)

/-- **A call keeps the registry consistent, or is undone, just where nothing goes wrong in
it.** -/
theorem callHolds_iff (hr : r.Consistent) (hfresh : r.Fresh) {c : Call} (hdistinct : r.Distinct c) :
    r.CallHolds c ↔ r.Smooth c := by
  cases c with
  | stop mockServerId log => exact callHolds_stop_iff hr log
  | start mockServerId env =>
    simp only [Smooth]
    cases hload : env.load with
    | error e => exact callHolds_start_error_iff hr hfresh hload
    | ok entity => exact callHolds_start_ok_iff hr hload (hdistinct entity hload)

theorem runHolds_iff_of_consistent {calls : List Call} (hr : r.Consistent) (hfresh : r.Fresh)
    (hdistinct : r.DistinctRun calls) : r.RunHolds calls ↔ r.SmoothRun calls := by
  induction calls generalizing r with
  | nil => exact Iff.rfl
  | cons c calls ih =>
    have hcall := callHolds_iff hr hfresh hdistinct.1
    constructor
    · rintro ⟨hfirst, hrest⟩
      exact ⟨hcall.1 hfirst, (ih hfirst.1 (hfresh.call c) hdistinct.2).1 hrest⟩
    · rintro ⟨hfirst, hrest⟩
      have hfirst := hcall.2 hfirst
      exact ⟨hfirst, (ih hfirst.1 (hfresh.call c) hdistinct.2).2 hrest⟩

theorem consistent_empty : Registry.empty.Consistent where
  endpoints endpoint mockServerId := by simp [Registry.empty]
  recorded l hl := absurd hl List.not_mem_nil

end Registry

/-- **The registry is consistent after every call of a run, and every start that has raised
is undone, just where nothing goes wrong in any call.** -/
theorem runHolds_iff (calls : List Call) (hdistinct : Registry.empty.DistinctRun calls) :
    Registry.empty.RunHolds calls ↔ Registry.empty.SmoothRun calls :=
  Registry.runHolds_iff_of_consistent Registry.consistent_empty
    (fun _ hl => absurd hl List.not_mem_nil) hdistinct

/-- A server with two queues, the second of which does not exist. -/
def missingQueue : StartEnv where
  load := .ok ⟨"orders", [⟨"b1", 1, "q1"⟩, ⟨"b2", 2, "q2"⟩]⟩
  listen i := if i = 1 then .error "Queue 'q2' not found." else .ok ()
  log := .ok ()

/-- Its start raises and leaves it registered, with the listener of the first queue alive. -/
theorem missingQueue_not_undone :
    Registry.empty.DistinctRun [.start "m1" missingQueue] ∧
      ¬Registry.empty.RunHolds [.start "m1" missingQueue] := by
  refine ⟨⟨fun _ _ other server h => absurd h (by simp [Registry.empty]), trivial⟩, ?_⟩
  rintro ⟨⟨-, hundone⟩, -⟩
  have hraised : (Registry.empty.call (.start "m1" missingQueue)).1
      = .error "Queue 'q2' not found." := rfl
  have hnone := (hundone "m1" missingQueue rfl _ hraised).1
  exact absurd ((Registry.serversById_start rfl).symm.trans hnone) (by simp)

/-- A server without queues, at an endpoint. -/
def quiet (endpoint : String) : StartEnv where
  load := .ok ⟨endpoint, []⟩
  listen _ := .ok ()
  log := .ok ()

/-- A server that is restarted with another endpoint, and stopped. -/
theorem runHolds_moved :
    Registry.empty.RunHolds [.start "m1" (quiet "orders"), .start "m1" (quiet "bills"),
        .stop "m1" (.ok ())]
      ↔ Registry.empty.SmoothRun [.start "m1" (quiet "orders"), .start "m1" (quiet "bills"),
        .stop "m1" (.ok ())] := by
  refine runHolds_iff _ ⟨?_, ?_, trivial, trivial⟩
  · exact fun _ _ other server h => absurd h (by simp [Registry.empty])
  · intro entity _ other server hserver _
    by_contra hne
    rw [Registry.serversById_start_of_ne hne] at hserver
    exact absurd hserver (by simp [Registry.empty])

end MockServer
end QualityFlow
