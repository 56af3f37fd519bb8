import DarajaWrapper.Library.Keyspace
import DarajaWrapper.Library.Simulation
import DarajaWrapper.Schemas.ResponseText
import DarajaWrapper.System.Cache

/-!
# The system on a Redis of texts

Redis knows keys and texts only, and the token cache and the rate limiter use the same
server. Here the service keeps its replies as JSON under `stk:idem:`, its locks under
`stk:lock:` and the callbacks that it has seen under `stk:callback:`, while others write
whatever they like under other keys. This machine refines the system with three maps.
-/

namespace DarajaWrapper

open Python Keyspace

/-- What the service keeps in Redis. -/
inductive ServiceMap where
  | idem
  | lock
  | callback
  deriving DecidableEq

def ServiceMap.front : ServiceMap → String
  | idem => "stk:idem:"
  | lock => "stk:lock:"
  | callback => "stk:callback:"

def serviceKey (m : ServiceMap) (s : String) : String := m.front ++ s

/-- A key of the service. -/
def isServiceKey (k : String) : Bool :=
  [ServiceMap.idem, .lock, .callback].any fun m => m.front.toList.isPrefixOf k.toList

theorem isServiceKey_iff {k : String} : isServiceKey k = true ↔ ∃ m s, serviceKey m s = k := by
  constructor
  · intro h
    obtain ⟨m, -, hm⟩ := List.any_eq_true.mp h
    obtain ⟨rest, hrest⟩ := List.isPrefixOf_iff_prefix.mp hm
    refine ⟨m, String.ofList rest, String.toList_inj.mp ?_⟩
    rw [serviceKey, String.toList_append, String.toList_ofList, hrest]
  · rintro ⟨m, s, rfl⟩
    refine List.any_eq_true.mpr ⟨m, by cases m <;> decide, ?_⟩
    rw [List.isPrefixOf_iff_prefix, serviceKey, String.toList_append]
    exact List.prefix_append _ _

theorem separate_serviceKey : Separate serviceKey := by
  have hfront : ∀ m m' : ServiceMap, m.front.toList <+: m'.front.toList → m = m' := by
    intro m m'
    cases m <;> cases m' <;> decide
  intro m s m' s' h
  have hlist : m.front.toList ++ s.toList = m'.front.toList ++ s'.toList := by
    rw [← String.toList_append, ← String.toList_append]
    exact congrArg String.toList h
  obtain ⟨hm, hs⟩ := separate_append hfront hlist
  exact ⟨hm, String.toList_inj.mp hs⟩

/-- The keys that the rest of the program writes are no keys of the service. -/
example : isServiceKey "daraja:oauth:token" = false ∧ isServiceKey "daraja:oauth:lock" = false ∧
    isServiceKey "ratelimit:10.0.0.1:/api/v1/payments/stk" = false := by decide

structure TextWorld where
  now : ℚ
  payments : PaymentsTable
  redis : String → Option String
  clients : ℕ → DarajaClient
  tasks : ℕ → Option Task
  log : List Event

inductive TextAction where
  /-- An action of the system. -/
  | own (a : Action)
  /-- Another user of the server sets or deletes one of its keys. -/
  | foreign (k : String) (v : Option String)

def TextAction.own? : TextAction → Option Action
  | own a => some a
  | foreign _ _ => none

/-- The empty text is no hit. What an unreadable text raises has no handler of its own. -/
def InitiatePc.afterCachedRaw (uuidOf : String → Option UUID) : Option String → InitiatePc
  | none => acquireLock
  | some raw =>
    if raw = "" then acquireLock
    else
      match STKPushInitiateResponse.modelValidateJson uuidOf raw with
      | some response => done (.cacheHit response)
      | none => done (.raised (.call .other))

def Action.onRedis : Action → Bool
  | evictIdem _ => true
  | expireLock _ => true
  | expireDedup _ => true
  | redis _ _ => true
  | _ => false

/-- A world whose Redis holds these three maps. -/
def World.withRedis (w : World) (idem : String → Option STKPushInitiateResponse)
    (lock dedup : String → Option ℕ) : World := { w with idem, lock, dedup }

namespace TextWorld

def init (redis : String → Option String) : TextWorld where
  now := 0
  payments := .empty
  redis := redis
  clients := fun _ => {}
  tasks := fun _ => none
  log := []

def set (t : TextWorld) (m : ServiceMap) (s : String) (v : Option String) : TextWorld :=
  { t with redis := Function.update t.redis (serviceKey m s) v }

def setTask (t : TextWorld) (i : ℕ) (task : Task) : TextWorld :=
  { t with tasks := Function.update t.tasks i (some task) }

/-- Everything but Redis. -/
def core (t : TextWorld) : World where
  now := t.now
  payments := t.payments
  idem := fun _ => none
  lock := fun _ => none
  dedup := fun _ => none
  clients := t.clients
  tasks := t.tasks
  log := t.log

def withCore (t : TextWorld) (w : World) : TextWorld where
  now := w.now
  payments := w.payments
  redis := t.redis
  clients := w.clients
  tasks := w.tasks
  log := w.log

section

variable (uuidOf : String → Option UUID) (t : TextWorld) (i client : ℕ)
  (r : STKPushInitiateRequest) (cb : STKCallbackBody) (link : Link)

def cacheGet : TextWorld :=
  t.setTask i (.initiate client r
    (.afterCachedRaw uuidOf (redisGet link (t.redis (serviceKey .idem r.idempotencyKey)))))

def acquireLock : TextWorld :=
  let key := r.idempotencyKey
  let acquired := redisSetNx link (t.redis (serviceKey .lock key)) "1"
  (t.set .lock key acquired.2).setTask i (.initiate client r (.afterSetNx key acquired.1))

def cacheResult (response : STKPushInitiateResponse) : TextWorld :=
  let key := r.idempotencyKey
  (t.set .idem key
    (redisSetex link (t.redis (serviceKey .idem key)) response.modelDumpJson)).setTask i
      (.initiate client r (.afterSetex response))

def releaseLock (outcome : InitiateOutcome) : TextWorld :=
  let key := r.idempotencyKey
  (t.set .lock key (redisDelete link (t.redis (serviceKey .lock key)))).setTask i
    (.initiate client r (.done outcome))

def claim : TextWorld :=
  let c := cb.checkoutRequestId
  let claimed := redisSetNx link (t.redis (serviceKey .callback c)) "1"
  (t.set .callback c claimed.2).setTask i (.callback cb (.afterSetNx claimed.1))

end

/-- One action; those that are not on Redis are the same as in the system. -/
def step (settings : Settings) (uuidOf : String → Option UUID) (t : TextWorld) :
    TextAction → Option TextWorld
  | .own (.evictIdem key) => some (t.set .idem key none)
  | .own (.expireLock key) => some (t.set .lock key none)
  | .own (.expireDedup c) => some (t.set .callback c none)
  | .own (.redis i link) =>
    match t.tasks i with
    | some (.initiate client r .cacheGet) => some (t.cacheGet uuidOf i client r link)
    | some (.initiate client r .acquireLock) => some (t.acquireLock i client r link)
    | some (.initiate client r (.cacheResult response)) =>
      some (t.cacheResult i client r link response)
    | some (.initiate client r (.releaseLock outcome)) =>
      some (t.releaseLock i client r link outcome)
    | some (.callback cb .claim) => some (t.claim i cb link)
    | _ => none
  | .own a => (World.step settings t.core a).map t.withCore
  | .foreign k v =>
    if isServiceKey k then none else some { t with redis := Function.update t.redis k v }

/-- The texts of Redis stand for the three maps of the world, and all else is the same. -/
structure Represents (t : TextWorld) (w : World) : Prop where
  core : t.core = w.withRedis (fun _ => none) (fun _ => none) (fun _ => none)
  idem : entries serviceKey t.redis .idem =
    fun key => (w.idem key).map STKPushInitiateResponse.modelDumpJson
  lock : entries serviceKey t.redis .lock = fun key => (w.lock key).map fun _ => "1"
  dedup : entries serviceKey t.redis .callback = fun c => (w.dedup c).map fun _ => "1"

variable {settings : Settings} {uuidOf : String → Option UUID} {t t' : TextWorld} {w : World}
  {a : Action}

theorem Represents.tasks (h : t.Represents w) : t.tasks = w.tasks := congrArg World.tasks h.core

theorem Represents.setTask (h : t.Represents w) (i : ℕ) (task : Task) :
    (t.setTask i task).Represents (w.setTask i task) where
  core := congrArg (fun w => w.setTask i task) h.core
  idem := h.idem
  lock := h.lock
  dedup := h.dedup

theorem map_update {α β : Type*} (f : α → β) (store : String → Option α) (key : String)
    (v : Option α) : (fun k => (Function.update store key v k).map f) =
      Function.update (fun k => (store k).map f) key (v.map f) := by
  funext k
  by_cases hk : k = key
  · subst hk
    simp
  · simp [hk]

theorem Represents.setIdem (h : t.Represents w) (key : String)
    (v : Option STKPushInitiateResponse) :
    (t.set .idem key (v.map STKPushInitiateResponse.modelDumpJson)).Represents
      { w with idem := Function.update w.idem key v } where
  core := h.core
  idem := by
    rw [map_update, ← h.idem]
    exact separate_serviceKey.entries_update_self _ _ _ _
  lock := (separate_serviceKey.entries_update_ne _ (by decide) _ _).trans h.lock
  dedup := (separate_serviceKey.entries_update_ne _ (by decide) _ _).trans h.dedup

theorem Represents.setLock (h : t.Represents w) (key : String) (v : Option ℕ) :
    (t.set .lock key (v.map fun _ => "1")).Represents
      { w with lock := Function.update w.lock key v } where
  core := h.core
  idem := (separate_serviceKey.entries_update_ne _ (by decide) _ _).trans h.idem
  lock := by
    rw [map_update, ← h.lock]
    exact separate_serviceKey.entries_update_self _ _ _ _
  dedup := (separate_serviceKey.entries_update_ne _ (by decide) _ _).trans h.dedup

theorem Represents.setDedup (h : t.Represents w) (c : String) (v : Option ℕ) :
    (t.set .callback c (v.map fun _ => "1")).Represents
      { w with dedup := Function.update w.dedup c v } where
  core := h.core
  idem := (separate_serviceKey.entries_update_ne _ (by decide) _ _).trans h.idem
  lock := (separate_serviceKey.entries_update_ne _ (by decide) _ _).trans h.lock
  dedup := by
    rw [map_update, ← h.dedup]
    exact separate_serviceKey.entries_update_self _ _ _ _

end TextWorld

theorem World.step_withRedis {settings : Settings} {w : World} {a : Action}
    (ha : a.onRedis = false) (idem : String → Option STKPushInitiateResponse)
    (lock dedup : String → Option ℕ) :
    World.step settings (w.withRedis idem lock dedup) a =
      (World.step settings w a).map fun w' => w'.withRedis idem lock dedup := by
  have htasks : (w.withRedis idem lock dedup).tasks = w.tasks := rfl
  cases a with
  | evictIdem | expireLock | expireDedup | redis => cases ha
  | tick d =>
    simp only [World.step]
    split_ifs <;> rfl
  | startInitiate i client r | startCallback i cb | startSweep i =>
    simp only [World.step, htasks]
    cases w.tasks i <;> rfl
  | query i link | insert i paymentId link | callDaraja i =>
    simp only [World.step, htasks]
    split <;> rfl
  | select i ids link =>
    simp only [World.step, htasks]
    split
    · rw [Option.map_map]
      rfl
    · rfl
  | write i link =>
    simp only [World.step, htasks]
    split
    · rfl
    · rfl
    · rfl
    · simp only [World.visitRow]
      split_ifs <;> rfl
    · rfl
  | attempt i reply accepted =>
    simp only [World.step, htasks]
    split
    · split_ifs <;> rfl
    · rfl
  | crash i =>
    simp only [World.step, htasks]
    split
    · split_ifs <;> rfl
    · rfl

namespace TextWorld

variable {settings : Settings} {uuidOf : String → Option UUID} {t t' : TextWorld} {w : World}
  {a : Action}

theorem Represents.rel_core (h : t.Represents w) (ha : a.onRedis = false) :
    Option.Rel Represents ((World.step settings t.core a).map t.withCore)
      (World.step settings w a) := by
  have hw : World.step settings w a =
      (World.step settings t.core a).map fun v => v.withRedis w.idem w.lock w.dedup := by
    rw [h.core]
    exact World.step_withRedis
      (w := w.withRedis (fun _ => none) (fun _ => none) fun _ => none) ha w.idem w.lock w.dedup
  rw [hw]
  cases World.step settings t.core a with
  | none => exact .none
  | some v => exact .some ⟨rfl, h.idem, h.lock, h.dedup⟩

section

variable (i client : ℕ) (r : STKPushInitiateRequest) (cb : STKCallbackBody) (link : Link)

theorem afterCachedRaw_map (huuid : ∀ u : UUID, uuidOf u.str = some u)
    (cached : Option STKPushInitiateResponse) :
    InitiatePc.afterCachedRaw uuidOf (cached.map STKPushInitiateResponse.modelDumpJson) =
      InitiatePc.afterCacheGet cached := by
  cases cached with
  | none => rfl
  | some response =>
    rw [Option.map_some, InitiatePc.afterCachedRaw, if_neg response.modelDumpJson_ne_empty,
      STKPushInitiateResponse.modelValidateJson_modelDumpJson huuid]
    rfl

theorem Represents.cacheGet (huuid : ∀ u : UUID, uuidOf u.str = some u) (h : t.Represents w) :
    (t.cacheGet uuidOf i client r link).Represents (w.cacheGet i client r link) := by
  have hslot : t.redis (serviceKey .idem r.idempotencyKey) =
      (w.idem r.idempotencyKey).map STKPushInitiateResponse.modelDumpJson := congrFun h.idem _
  rw [TextWorld.cacheGet, hslot, redisGet_map, afterCachedRaw_map huuid]
  exact h.setTask i _

theorem Represents.acquireLock (h : t.Represents w) :
    (t.acquireLock i client r link).Represents (w.acquireLock i client r link) := by
  have hslot : t.redis (serviceKey .lock r.idempotencyKey) =
      (w.lock r.idempotencyKey).map fun _ => "1" := congrFun h.lock _
  rw [TextWorld.acquireLock, hslot, redisSetNx_map_const link _ i]
  exact (h.setLock _ _).setTask i _

theorem Represents.cacheResult (h : t.Represents w) (response : STKPushInitiateResponse) :
    (t.cacheResult i client r link response).Represents
      (w.cacheResult i client r link response) := by
  have hslot : t.redis (serviceKey .idem r.idempotencyKey) =
      (w.idem r.idempotencyKey).map STKPushInitiateResponse.modelDumpJson := congrFun h.idem _
  rw [TextWorld.cacheResult, hslot, redisSetex_map]
  exact (h.setIdem _ _).setTask i _

theorem Represents.releaseLock (h : t.Represents w) (outcome : InitiateOutcome) :
    (t.releaseLock i client r link outcome).Represents
      (w.releaseLock i client r link outcome) := by
  have hslot : t.redis (serviceKey .lock r.idempotencyKey) =
      (w.lock r.idempotencyKey).map fun _ => "1" := congrFun h.lock _
  rw [TextWorld.releaseLock, hslot, redisDelete_map]
  exact (h.setLock _ _).setTask i _

theorem Represents.claim (h : t.Represents w) :
    (t.claim i cb link).Represents (w.claim i cb link) := by
  have hslot : t.redis (serviceKey .callback cb.checkoutRequestId) =
      (w.dedup cb.checkoutRequestId).map fun _ => "1" := congrFun h.dedup _
  rw [TextWorld.claim, hslot, redisSetNx_map_const link _ i]
  exact (h.setDedup _ _).setTask i _

end

theorem Represents.rel_redis (huuid : ∀ u : UUID, uuidOf u.str = some u) (h : t.Represents w)
    (i : ℕ) (link : Link) :
    Option.Rel Represents (TextWorld.step settings uuidOf t (.own (.redis i link)))
      (World.step settings w (.redis i link)) := by
  simp only [TextWorld.step, World.step, h.tasks]
  cases w.tasks i with
  | none => exact .none
  | some task =>
    cases task with
    | initiate client r pc =>
      cases pc with
      | cacheGet => exact .some (h.cacheGet i client r link huuid)
      | acquireLock => exact .some (h.acquireLock i client r link)
      | cacheResult response => exact .some (h.cacheResult i client r link response)
      | releaseLock outcome => exact .some (h.releaseLock i client r link outcome)
      | _ => exact .none
    | callback cb pc =>
      cases pc with
      | claim => exact .some (h.claim i cb link)
      | _ => exact .none
    | sweep pc => exact .none

/-- The machine of texts refines the system: an action of another user is not seen by it. -/
theorem refines (settings : Settings) (huuid : ∀ u : UUID, uuidOf u.str = some u) :
    Machine.Refines (TextWorld.step settings uuidOf) (World.step settings) TextAction.own?
      Represents where
  matched t w b a h hb := by
    cases b with
    | foreign k v => cases hb
    | own a' =>
      cases hb
      cases a with
      | evictIdem key => exact .some (h.setIdem key none)
      | expireLock key => exact .some (h.setLock key none)
      | expireDedup c => exact .some (h.setDedup c none)
      | redis i link => exact h.rel_redis huuid i link
      | _ => exact h.rel_core rfl
  internal t t' w b h hb hstep := by
    cases b with
    | own a => cases hb
    | foreign k v =>
      simp only [TextWorld.step] at hstep
      split_ifs at hstep with hk
      cases hstep
      have hforeign : ∀ m s, serviceKey m s ≠ k :=
        fun m s heq => hk (isServiceKey_iff.mpr ⟨m, s, heq⟩)
      have hentries := entries_update_foreign t.redis hforeign v
      exact ⟨h.core, (congrFun hentries _).trans h.idem, (congrFun hentries _).trans h.lock,
        (congrFun hentries _).trans h.dedup⟩

/-- What the other users of the server make of a key. -/
def valueAfter (k : String) : Option String → List TextAction → Option String
  | v, [] => v
  | v, .own _ :: bs => valueAfter k v bs
  | v, .foreign k' v' :: bs => valueAfter k (if k = k' then v' else v) bs

theorem redis_set_of_foreign {k : String} (hk : isServiceKey k = false) (t : TextWorld)
    (m : ServiceMap) (s : String) (v : Option String) : (t.set m s v).redis k = t.redis k := by
  have hne : k ≠ serviceKey m s := by
    rintro rfl
    rw [isServiceKey_iff.mpr ⟨m, s, rfl⟩] at hk
    cases hk
  exact Function.update_of_ne hne ..

/-- The service leaves the keys of others alone. -/
theorem redis_step_of_foreign {k : String} (hk : isServiceKey k = false)
    (hstep : TextWorld.step settings uuidOf t (.own a) = some t') : t'.redis k = t.redis k := by
  have hcore : ∀ o : Option World, o.map t.withCore = some t' → t'.redis k = t.redis k := by
    intro o ho
    obtain ⟨v, -, rfl⟩ := Option.map_eq_some_iff.mp ho
    rfl
  cases a with
  | evictIdem key | expireLock key | expireDedup key =>
    cases hstep
    exact redis_set_of_foreign hk _ _ _ _
  | redis i link =>
    simp only [TextWorld.step] at hstep
    split at hstep <;> cases hstep
    · rfl
    all_goals exact redis_set_of_foreign hk _ _ _ _
  | _ => exact hcore _ hstep

theorem redis_run_of_foreign {k : String} {bs : List TextAction} (hk : isServiceKey k = false)
    (hrun : Machine.run (TextWorld.step settings uuidOf) t bs = some t') :
    t'.redis k = valueAfter k (t.redis k) bs := by
  induction bs generalizing t with
  | nil =>
    cases hrun
    rfl
  | cons b bs ih =>
    obtain ⟨u, hstep, hrest⟩ := Machine.run_cons.mp hrun
    rw [ih hrest]
    cases b with
    | own a => rw [valueAfter, redis_step_of_foreign hk hstep]
    | foreign k' v =>
      simp only [TextWorld.step] at hstep
      split_ifs at hstep
      cases hstep
      rw [valueAfter]
      congr 1
      exact Function.update_apply ..

def Fresh (redis : String → Option String) : Prop := ∀ k, isServiceKey k = true → redis k = none

theorem represents_init {redis : String → Option String} (h : Fresh redis) :
    (TextWorld.init redis).Represents World.init := by
  have hentries : ∀ m, entries serviceKey redis m = fun _ => none :=
    fun m => funext fun s => h _ (isServiceKey_iff.mpr ⟨m, s, rfl⟩)
  exact ⟨rfl, hentries .idem, hentries .lock, hentries .callback⟩

/-- On one Redis of texts that is shared with other users, the runs are those of the system: what a
run shows of the service is a run of the system, every run of the system is shown, and a key of
the others is what they make of it. -/
theorem text_store_refines (settings : Settings) (huuid : ∀ u : UUID, uuidOf u.str = some u)
    {redis : String → Option String} (hredis : Fresh redis) :
    (∀ bs t, Machine.run (TextWorld.step settings uuidOf) (init redis) bs = some t →
      (∃ w, Machine.run (World.step settings) World.init (bs.filterMap TextAction.own?) = some w ∧
        t.Represents w) ∧
      ∀ k, isServiceKey k = false → t.redis k = valueAfter k (redis k) bs) ∧
    ∀ as w, Machine.run (World.step settings) World.init as = some w →
      ∃ t, Machine.run (TextWorld.step settings uuidOf) (init redis) (as.map .own) = some t ∧
        t.Represents w := by
  have hrefines := refines settings huuid
  have hinit := represents_init hredis
  constructor
  · intro bs t hrun
    exact ⟨hrefines.run hinit hrun, fun k hk => redis_run_of_foreign hk hrun⟩
  · intro as w hrun
    exact hrefines.run_map (fun _ => rfl) hinit hrun

theorem text_store_refines_sample :
    ∃ t, Machine.run (TextWorld.step {} UUID.ofText) (init fun _ => none)
        ((World.sampleInitiation 0 7).map .own) = some t ∧
      t.Represents (World.after {} _ World.sampleInitiation_enabled) :=
  (text_store_refines {} UUID.ofText_str fun _ _ => rfl).2 _ _
    (World.run_after World.sampleInitiation_enabled)

/-- Whatever is found under `stk:idem:` can be read, and names the committed row of the key. -/
theorem cached_text_reads (huuid : ∀ u : UUID, uuidOf u.str = some u)
    {redis : String → Option String} (hredis : Fresh redis)
    (ht : Machine.Reachable (TextWorld.step settings uuidOf) (init redis) t) {key raw : String}
    (hraw : t.redis (serviceKey .idem key) = some raw) :
    ∃ response, InitiatePc.afterCachedRaw uuidOf (some raw) = .done (.cacheHit response) ∧
      raw = response.modelDumpJson ∧ World.Recorded t.payments key response := by
  obtain ⟨w, hw, hrep⟩ := (refines settings huuid).reachable (represents_init hredis) ht
  have hslot : t.redis (serviceKey .idem key) =
      (w.idem key).map STKPushInitiateResponse.modelDumpJson := congrFun hrep.idem key
  rw [hraw] at hslot
  obtain ⟨response, hidem, hdump⟩ := Option.map_eq_some_iff.mp hslot.symm
  have hread := afterCachedRaw_map huuid (some response)
  rw [Option.map_some, hdump] at hread
  refine ⟨response, hread, hdump.symm, ?_⟩
  have hpayments : t.payments = w.payments := congrArg World.payments hrep.core
  rw [hpayments]
  exact World.Reachable.coherent hw (.cache hidem)

theorem sample_cached : (World.after {} _ World.sampleInitiation_enabled).idem "key-0001" =
    some World.sampleResponse := by
  decide +kernel

theorem cached_text_reads_sample :
    ∃ (t : TextWorld) (response : STKPushInitiateResponse),
      t.redis (serviceKey .idem "key-0001") = some response.modelDumpJson ∧
        World.Recorded t.payments "key-0001" response := by
  have hredis : Fresh fun _ => none := fun _ _ => rfl
  have hown : ∀ a, (TextAction.own a).own? = some a := fun _ => rfl
  obtain ⟨t, hrun, hrep⟩ := (refines {} UUID.ofText_str).run_map hown (represents_init hredis)
    (World.run_after World.sampleInitiation_enabled)
  have hraw := congrFun hrep.idem "key-0001"
  rw [sample_cached] at hraw
  obtain ⟨response, -, hdump, hrecorded⟩ :=
    cached_text_reads UUID.ofText_str hredis ⟨_, hrun⟩ hraw
  exact ⟨t, response, hraw.trans (congrArg some hdump), hrecorded⟩

end TextWorld
end DarajaWrapper
