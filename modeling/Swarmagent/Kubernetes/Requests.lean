import Swarmagent.Kubernetes.Client
import Swarmagent.Kubernetes.Watch
import Swarmagent.Machine.Program

/-!
# Requests to a cluster that changes

Elsewhere a tick is a function of what the cluster answers.  But a tick makes several requests, and
between two of them the cluster may change.  In this file the provider is a program that calls the
client, and a call may be answered in any way.

A tick asks for each thing once at most (`keys_of_status`), so that whatever the cluster does
meanwhile, the tick is what it would be in a cluster that stands still (`status_static`).
-/

namespace Swarmagent.Kubernetes

open Swarmagent.Json Swarmagent.Rust Machine

/-! ## The provider -/

/-- The calls of `KubeClient`. -/
inductive Call where
  | getJson (path : String)
  | kubeletGetJson (url : String)
  | watch (path : String)
deriving DecidableEq

/-- What a call returns.  Of the response to a watch this is the stream. -/
abbrev Call.Returns (ε : Type) : Call → Type
  | getJson _ => Except String Value
  | kubeletGetJson _ => Except String Value
  | watch _ => Except String (List (Except ε Bytes))

namespace KubernetesProvider

variable (provider : KubernetesProvider String)

def nodePath : String := "/api/v1/nodes/" ++ provider.nodeName

def proxyPath : String := "/api/v1/nodes/" ++ provider.nodeName ++ "/proxy/stats/summary"

def podsPath : String := "/api/v1/pods?fieldSelector=spec.nodeName=" ++ provider.nodeName

def watchPath : String := "/api/v1/pods?watch=1&fieldSelector=spec.nodeName=" ++ provider.nodeName

/-- What a tick makes of what it has read.  Without the list of pods, container metadata will be
incomplete. -/
def snapshot (nodeMeta : NodeMeta) (summary : Summary) (podList : Except String Value) : Status :=
  let metas := parsePodMetas (match podList with | .ok v => v | .error _ => .null)
  let parts := nodeStatusParts summary.node nodeMeta.capacityCores nodeMeta.capacityMemBytes
  { id := provider.nodeName
    hostname := nodeMeta.hostname
    orchestrator := "kubernetes"
    disk := parts.2.2
    cpu := parts.1
    memory := parts.2.1
    tasks := summary.containerStatuses metas nodeMeta.capacityCores
    engineVersion := nodeMeta.engineVersion
    apiVersion := nodeMeta.apiVersion
    kernelVersion := nodeMeta.kernelVersion
    agentVersion := packageVersion }

theorem status_eq :
    provider.status = match provider.client.getJson provider.nodePath with
      | .error e => .error (.request e)
      | .ok node => match provider.fetchSummary (parseNodeMeta node).internalIp with
        | .error e => .error (.request e)
        | .ok summaryRaw => match Summary.fromValue summaryRaw with
          | none => .error (.context "parse stats/summary")
          | some summary => .ok (provider.snapshot (parseNodeMeta node) summary
              (provider.client.getJson provider.podsPath)) := by
  unfold status nodePath
  cases provider.client.getJson ("/api/v1/nodes/" ++ provider.nodeName) with
  | error e => rfl
  | ok node =>
      simp only [Except.mapError, bind, Except.bind]
      cases provider.fetchSummary (parseNodeMeta node).internalIp with
      | error e => rfl
      | ok summaryRaw =>
          dsimp only
          cases Summary.fromValue summaryRaw with
          | none => rfl
          | some summary =>
              refine congrArg Except.ok ?_
              unfold snapshot podsPath
              cases provider.client.getJson
                ("/api/v1/pods?fieldSelector=spec.nodeName=" ++ provider.nodeName) <;> rfl

/-- The provider with another client. -/
def withClient (client : KubeClient String) : KubernetesProvider String :=
  { provider with client }

end KubernetesProvider

namespace Requests

/-- What the provider does with its client. -/
abbrev ProviderProgram (ε : Type) : Type → Type := Program Call (Call.Returns ε)

section Provider

variable {ε : Type} (provider : KubernetesProvider String)

def getJson (path : String) : ProviderProgram ε (Except String Value) :=
  Program.perform (.getJson path : Call)

def kubeletGetJson (url : String) : ProviderProgram ε (Except String Value) :=
  Program.perform (.kubeletGetJson url : Call)

def watch (path : String) : ProviderProgram ε (Except String (List (Except ε Bytes))) :=
  Program.perform (.watch path : Call)

/-- `fetch_summary`. -/
def fetchSummary (nodeIp : Option String) : ProviderProgram ε (Except String Value) :=
  let viaProxy := getJson provider.proxyPath
  match provider.kubeletMode with
  | .direct => match provider.nodeIp.or nodeIp with
    | some ip => do
        match ← kubeletGetJson ("https://" ++ ip ++ ":10250/stats/summary") with
        | .ok v => return .ok v
        | .error _ => viaProxy
    | none => viaProxy
  | .proxy => viaProxy

/-- `status`. -/
def status : ProviderProgram ε (Except (StatusError String) Status) := do
  match ← getJson provider.nodePath with
  | .error e => return .error (.request e)
  | .ok node =>
      let nodeMeta := parseNodeMeta node
      match ← fetchSummary provider nodeMeta.internalIp with
      | .error e => return .error (.request e)
      | .ok summaryRaw => match Summary.fromValue summaryRaw with
        | none => return .error (.context "parse stats/summary")
        | some summary =>
            let podList ← getJson provider.podsPath
            return .ok (provider.snapshot nodeMeta summary podList)

variable (timestampOf : String → Option Int) (fromSlice : Bytes → Option Value)

/-- `watch_once`. -/
def watchOnce (ambient : Ambient) (state : WatchState) :
    ProviderProgram ε (Session × Except String Unit) := do
  let resp ← watch provider.watchPath
  return Kubernetes.watchOnce timestampOf fromSlice ambient state
    (resp.map (List.map (context "pod watch stream")))

/-- `run_events`, as far as it gets in the given rounds. -/
def runEvents : EventLoop → List Ambient →
    ProviderProgram ε (EventLoop × List (Attempt String))
  | s, [] => return (s, [])
  | s, ambient :: rest => do
      let r ← watchOnce provider timestampOf fromSlice ambient s.state
      let (s', attempts) ←
        runEvents { state := r.1.state, delay := min (s.delay * 2) 60 } rest
      return (s', { session := r.1, outcome := r.2, slept := s.delay } :: attempts)

end Provider

/-! ## A cluster that stands still -/

section Static

variable {ε : Type} (provider : KubernetesProvider String)

/-- The answers of a client that always returns the same. -/
def answers (client : KubeClient String)
    (streams : String → Except String (List (Except ε Bytes))) : (q : Call) → q.Returns ε
  | .getJson path => client.getJson path
  | .kubeletGetJson url => client.kubeletGetJson url
  | .watch path => streams path

variable (client : KubeClient String) (streams : String → Except String (List (Except ε Bytes)))

/-- The kubelet is asked first if there is a URL for it. -/
theorem fetchSummary_eq (nodeIp : Option String) :
    (fetchSummary provider nodeIp : ProviderProgram ε _) =
      match provider.directUrl nodeIp with
      | some url => (kubeletGetJson url).bind fun r ↦ match r with
        | .ok v => .done (.ok v)
        | .error _ => getJson provider.proxyPath
      | none => getJson provider.proxyPath := by
  unfold fetchSummary KubernetesProvider.directUrl
  cases provider.kubeletMode with
  | proxy => rfl
  | direct => cases provider.nodeIp.or nodeIp <;> rfl

theorem eval_fetchSummary (nodeIp : Option String) :
    (fetchSummary provider nodeIp).eval (answers client streams) =
      (provider.withClient client).fetchSummary nodeIp := by
  have hurl : (provider.withClient client).directUrl nodeIp = provider.directUrl nodeIp := rfl
  rw [fetchSummary_eq, KubernetesProvider.fetchSummary_eq, hurl]
  cases provider.directUrl nodeIp with
  | none => rfl
  | some url =>
      have hkubelet : (kubeletGetJson url).eval (answers client streams) =
          client.kubeletGetJson url := rfl
      simp only [Program.eval_bind, hkubelet, Option.map_some, KubernetesProvider.withClient]
      cases client.kubeletGetJson url <;> rfl

theorem eval_status :
    (status provider).eval (answers client streams) = (provider.withClient client).status := by
  have hget : ∀ path, (getJson path).eval (answers client streams) = client.getJson path :=
    fun _ ↦ rfl
  have hfetch := eval_fetchSummary provider client streams
  rw [KubernetesProvider.status_eq]
  unfold status
  simp only [bind, Program.eval_bind, hget]
  show Program.eval _ _ = match client.getJson provider.nodePath with | .error _ => _ | .ok _ => _
  cases client.getJson provider.nodePath with
  | error e => rfl
  | ok node =>
      simp only [Program.eval_bind, hfetch]
      cases (provider.withClient client).fetchSummary (parseNodeMeta node).internalIp with
      | error e => rfl
      | ok summaryRaw =>
          dsimp only
          cases Summary.fromValue summaryRaw <;> rfl

end Static

/-! ## What is asked for -/

section Calls

variable {ε : Type} (provider : KubernetesProvider String)

/-- What a tick may ask for, in this order. -/
def tickCalls (nodeIp : Option String) : List Call :=
  .getJson provider.nodePath :: (((provider.directUrl nodeIp).map Call.kubeletGetJson).toList ++
    [.getJson provider.proxyPath, .getJson provider.podsPath])

/-- Texts that begin in two ways. -/
theorem append_ne_of_take {a b x y : String} (n : ℕ) (h : a.toList.take n ≠ b.toList.take n)
    (ha : n ≤ a.toList.length) (hb : n ≤ b.toList.length) : a ++ x ≠ b ++ y := by
  intro heq
  have htake := congrArg (fun s ↦ s.toList.take n) heq
  simp only [String.toList_append, List.take_append_of_le_length ha,
    List.take_append_of_le_length hb] at htake
  exact h htake

theorem nodup_tickCalls (nodeIp : Option String) : (tickCalls provider nodeIp).Nodup := by
  have hproxy : provider.nodePath ≠ provider.proxyPath := by
    intro h
    have hlist : provider.nodePath.toList =
        provider.nodePath.toList ++ "/proxy/stats/summary".toList :=
      (congrArg String.toList h).trans String.toList_append
    exact absurd (List.self_eq_append_right.mp hlist) (by decide)
  have hstart : ∀ x y : String,
      "/api/v1/nodes/" ++ x ≠ "/api/v1/pods?fieldSelector=spec.nodeName=" ++ y :=
    fun x y ↦ append_ne_of_take 9 (by decide) (by decide) (by decide)
  have hpods : provider.nodePath ≠ provider.podsPath := hstart _ _
  have hlast : provider.proxyPath ≠ provider.podsPath := fun h ↦
    hstart (provider.nodeName ++ "/proxy/stats/summary") _ (String.append_assoc.symm.trans h)
  cases hurl : provider.directUrl nodeIp <;> simp [tickCalls, hurl, hproxy, hpods, hlast]

variable {provider} {t : List (Sigma (Call.Returns ε))}

theorem keys_of_fetchSummary {nodeIp : Option String} {r : Except String Value}
    (h : Program.Run (fetchSummary provider nodeIp) t r) :
    t.keys.Sublist (((provider.directUrl nodeIp).map Call.kubeletGetJson).toList ++
      [.getJson provider.proxyPath]) := by
  rw [fetchSummary_eq] at h
  cases hurl : provider.directUrl nodeIp with
  | none =>
      rw [hurl] at h
      obtain rfl := Program.run_perform_iff.mp h
      exact List.Sublist.refl _
  | some url =>
      rw [hurl] at h
      obtain ⟨answer, t', rfl, hnext⟩ := Program.run_perform_bind_iff.mp h
      cases answer with
      | ok v =>
          obtain ⟨rfl, -⟩ := Program.run_done_iff.mp hnext
          simp
      | error e =>
          obtain rfl := Program.run_perform_iff.mp hnext
          simp

/-- **What a tick asks for**: its own node, the summary and the pods, each once at most. -/
theorem keys_of_status {r : Except (StatusError String) Status}
    (h : Program.Run (status provider) t r) :
    ∃ nodeIp, t.keys.Sublist (tickCalls provider nodeIp) := by
  obtain ⟨node, t', rfl, hnext⟩ := Program.run_perform_bind_iff.mp h
  cases node with
  | error e =>
      obtain ⟨rfl, -⟩ := Program.run_done_iff.mp hnext
      exact ⟨none, by simp [tickCalls]⟩
  | ok node =>
      refine ⟨(parseNodeMeta node).internalIp, List.Sublist.cons_cons _ ?_⟩
      obtain ⟨fetched, summary, rest, rfl, hfetch, hrest⟩ := Program.run_bind_iff.mp hnext
      have hpods : rest.keys.Sublist [.getJson provider.podsPath] := by
        cases summary with
        | error e =>
            obtain ⟨rfl, -⟩ := Program.run_done_iff.mp hrest
            simp
        | ok summaryRaw =>
            dsimp only at hrest
            cases hsummary : Summary.fromValue summaryRaw with
            | none =>
                rw [hsummary] at hrest
                obtain ⟨rfl, -⟩ := Program.run_done_iff.mp hrest
                simp
            | some summary =>
                rw [hsummary] at hrest
                obtain ⟨pods, last, rfl, hlast⟩ := Program.run_perform_bind_iff.mp hrest
                obtain ⟨rfl, -⟩ := Program.run_done_iff.mp hlast
                simp
      have hall := (keys_of_fetchSummary hfetch).append hpods
      rwa [← List.keys_append, List.append_assoc] at hall

/-- Whatever a tick is told, a client that always tells this makes the same of it. -/
theorem exists_client_of_status {r : Except (StatusError String) Status}
    (h : Program.Run (status provider) t r) :
    ∃ client : KubeClient String, (provider.withClient client).status = r ∧
      (∀ path v, ⟨.getJson path, v⟩ ∈ t → client.getJson path = v) ∧
      ∀ url v, ⟨.kubeletGetJson url, v⟩ ∈ t → client.kubeletGetJson url = v := by
  obtain ⟨nodeIp, hkeys⟩ := keys_of_status h
  have hnodup : t.NodupKeys := hkeys.nodup (nodup_tickCalls provider nodeIp)
  let other : (q : Call) → q.Returns ε
    | .getJson _ => .error ""
    | .kubeletGetJson _ => .error ""
    | .watch _ => .error ""
  let answer := Program.recorded t other
  let client : KubeClient String :=
    { getJson := fun path ↦ answer (.getJson path)
      kubeletGetJson := fun url ↦ answer (.kubeletGetJson url) }
  have hanswers : answer = answers client fun path ↦ answer (.watch path) := by
    funext q
    cases q <;> rfl
  refine ⟨client, ?_, fun path v hv ↦ ?_, fun url v hv ↦ ?_⟩
  · rw [← eval_status provider client fun path ↦ answer (.watch path), ← hanswers]
    exact Program.eval_recorded h hnodup other
  · exact Program.recorded_of_mem hnodup hv
  · exact Program.recorded_of_mem hnodup hv

variable (ε provider) in
/-- **A tick in a cluster that changes** comes to what it would come to in one that stands still and
answers what the tick was answered, and the other way round. -/
theorem status_static :
    (∀ (t : List (Sigma (Call.Returns ε))) r, Program.Run (status provider) t r →
      (∃ nodeIp, t.keys.Sublist (tickCalls provider nodeIp)) ∧
      ∃ client : KubeClient String, (provider.withClient client).status = r ∧
        (∀ path v, ⟨.getJson path, v⟩ ∈ t → client.getJson path = v) ∧
        ∀ url v, ⟨.kubeletGetJson url, v⟩ ∈ t → client.kubeletGetJson url = v) ∧
    ∀ client : KubeClient String, ∃ t : List (Sigma (Call.Returns ε)),
      Program.Run (status provider) t (provider.withClient client).status := by
  refine ⟨fun t r h ↦ ⟨keys_of_status h, exists_client_of_status h⟩, fun client ↦ ?_⟩
  let streams : String → Except String (List (Except ε Bytes)) := fun _ ↦ .error ""
  obtain ⟨t, ht, -⟩ := Program.exists_run_eval (answers client streams) (status provider)
  rw [eval_status] at ht
  exact ⟨t, ht⟩

variable {timestampOf : String → Option Int} {fromSlice : Bytes → Option Value}

/-- The connection that a watch makes. -/
def connection (resp : Except String (List (Except ε Bytes))) (ambient : Ambient) :
    Connection String where
  stream := resp.map (List.map (context "pod watch stream"))
  ambient := ambient

/-- A round and the rounds after it. -/
theorem runEvents_cons (s : EventLoop) (ambient : Ambient) (rest : List Ambient) :
    (runEvents provider timestampOf fromSlice s (ambient :: rest) : ProviderProgram ε _) =
      (watch provider.watchPath).bind fun resp ↦
        let r := eventLoopStep timestampOf fromSlice s (connection resp ambient)
        (runEvents provider timestampOf fromSlice r.1 rest).bind fun r' ↦
          .done (r'.1, r.2 ++ r'.2) := rfl

/-- **What the loop of `run_events` asks for**: in each round a watch of the pods of its own node,
which makes the connection of the round. -/
theorem run_runEvents_iff {s : EventLoop} {ambients : List Ambient}
    {r : EventLoop × List (Attempt String)} :
    Program.Run (runEvents provider timestampOf fromSlice s ambients) t r ↔
      ∃ resps : List (Except String (List (Except ε Bytes))), resps.length = ambients.length ∧
        t = resps.map (fun resp ↦ ⟨.watch provider.watchPath, resp⟩) ∧
        r = Kubernetes.runEvents timestampOf fromSlice s
          (List.zipWith connection resps ambients) := by
  induction ambients generalizing s t r with
  | nil =>
      constructor
      · intro h
        obtain ⟨rfl, rfl⟩ := Program.run_done_iff.mp h
        exact ⟨[], rfl, rfl, rfl⟩
      · rintro ⟨resps, hlength, rfl, rfl⟩
        obtain rfl := List.length_eq_zero_iff.mp hlength
        exact .done _
  | cons ambient rest ih =>
      rw [runEvents_cons]
      constructor
      · intro h
        obtain ⟨resp, t', rfl, hnext⟩ := Program.run_perform_bind_iff.mp h
        obtain ⟨t', r', last, rfl, hrest, hlast⟩ := Program.run_bind_iff.mp hnext
        obtain ⟨resps, hlength, rfl, rfl⟩ := ih.mp hrest
        obtain ⟨rfl, rfl⟩ := Program.run_done_iff.mp hlast
        exact ⟨resp :: resps, congrArg (· + 1) hlength, by simp, rfl⟩
      · rintro ⟨resps, hlength, rfl, rfl⟩
        obtain ⟨resp, resps, rfl⟩ := List.exists_cons_of_length_eq_add_one hlength
        refine Program.run_perform_bind_iff.mpr ⟨resp, _, rfl, Program.run_bind_iff.mpr ?_⟩
        exact ⟨_, _, [], (List.append_nil _).symm,
          ih.mpr ⟨resps, Nat.succ.inj hlength, rfl, rfl⟩, .done _⟩

end Calls

end Requests

end Swarmagent.Kubernetes
