import Svgd.Backend.Workers
import Svgd.Proof.CacheTransparency

/-!
# What the workers get from the shared cache

The invariant of the pool says where every binding and every answer comes from, and what
a worker between its put and its second get can count on.

* Backwards: every binding was made by a put on record, and every put on record stores
  what its worker fetched (`PutOk`). So every answer was fetched and stored by somebody
  under the answer's key, less than a lifetime before it was read (`AnswerOk`).
* Forwards: as long as a worker stands before its second get, its key is bound to
  something that lasts until its own put would expire (`PhaseOk`). Another worker's put
  under that key happens later, so under a constant lifetime it only moves the expiry
  forward.

Only the step from the key to the path and the period needs more: the key is cut at 511
bytes, so two requests may share a key.
-/

namespace Svgd.Backend

open Lib Pool

variable {W : Type} {config : Config} {ttl : Int}

/-! ## The invariant -/

/-- The binding was made by a put on record. -/
def FromPut (config : Config) (ttl : Int) (puts : List (Put W)) (k : Bytes) (d : MetricData)
    (e : Int) : Prop :=
  ∃ u ∈ puts, u.req.key config = k ∧ u.data = d ∧ u.putAt + lifetime ttl = e

/-- A put on record stores what its worker fetched for a request of the run. -/
structure PutOk (config : Config) (p : Pool W) (u : Put W) : Prop where
  asked : u.req ∈ p.asked
  fetched : u.req.fetch config u.world u.fetchedAt = some u.data
  past : u.putAt ≤ p.clock

/-- What a worker knows where it stands. -/
def PhaseOk (config : Config) (ttl : Int) (p : Pool W) : Phase → Prop
  | .idle => True
  | .started r => r ∈ p.asked
  | .missed r => r ∈ p.asked
  | .fetched r w now d => r ∈ p.asked ∧ r.fetch config w now = some d
  | .stored r t =>
      r ∈ p.asked ∧ t ≤ p.clock
        ∧ p.cache.slots.toMap.LastsUntil (r.key config) (t + lifetime ttl)

/-- What is known of a finished call. -/
structure AnswerOk (config : Config) (ttl : Int) (p : Pool W) (a : Served W) : Prop where
  asked : a.req ∈ p.asked
  /-- Its data was stored under its key less than a lifetime before. -/
  source : ∀ d, a.data = some d → ∃ u ∈ p.puts, u.req.key config = a.req.key config
    ∧ u.data = d ∧ u.putAt ≤ a.readAt ∧ a.readAt < u.putAt + lifetime ttl
  /-- It has data, if it stored some less than a lifetime before. -/
  own : ∀ t, a.storedAt = some t → a.readAt < t + lifetime ttl → a.data.isSome = true

/-- The invariant of the pool. -/
structure PoolInv (config : Config) (ttl : Int) (p : Pool W) : Prop where
  ready : p.cache.initialized = true
  lasting : p.cache.ttlSeconds = lifetime ttl
  within : p.cache.slots.toMap.Within (FromPut config ttl p.puts)
  puts : ∀ u ∈ p.puts, PutOk config p u
  phases : ∀ w, PhaseOk config ttl p (p.phase w)
  answers : ∀ a ∈ p.answers, AnswerOk config ttl p a

theorem poolInv_init (config : Config) (ttl clock : Int) :
    PoolInv config ttl (Pool.init ttl clock : Pool W) where
  ready := rfl
  lasting := rfl
  within := TtlMap.within_empty
  puts := by intro u h; simp [Pool.init] at h
  phases := by intro w; exact trivial
  answers := by intro a h; simp [Pool.init] at h

/-! ## What only grows -/

/-- What no step takes back: requests and puts on record, time, and that a key lasts until a
put of the past expires. -/
structure Grows (ttl : Int) (p p' : Pool W) : Prop where
  asked : p.asked ⊆ p'.asked
  puts : p.puts ⊆ p'.puts
  clock : p.clock ≤ p'.clock
  lasts : ∀ k t, t ≤ p.clock → p.cache.slots.toMap.LastsUntil k (t + lifetime ttl) →
    p'.cache.slots.toMap.LastsUntil k (t + lifetime ttl)

section

variable {p p' : Pool W}

theorem PutOk.mono {u : Put W} (h : PutOk config p u) (hg : Grows ttl p p') :
    PutOk config p' u :=
  ⟨hg.asked h.asked, h.fetched, le_trans h.past hg.clock⟩

theorem PhaseOk.mono {ph : Phase} (h : PhaseOk config ttl p ph) (hg : Grows ttl p p') :
    PhaseOk config ttl p' ph := by
  cases ph with
  | idle => trivial
  | started r => exact hg.asked h
  | missed r => exact hg.asked h
  | fetched r w now d => exact ⟨hg.asked h.1, h.2⟩
  | stored r t => exact ⟨hg.asked h.1, le_trans h.2.1 hg.clock, hg.lasts _ _ h.2.1 h.2.2⟩

theorem AnswerOk.mono {a : Served W} (h : AnswerOk config ttl p a) (hg : Grows ttl p p') :
    AnswerOk config ttl p' a where
  asked := hg.asked h.asked
  source d hd := by
    obtain ⟨u, hu, hrest⟩ := h.source d hd
    exact ⟨u, hg.puts hu, hrest⟩
  own := h.own

/-- The invariant carries over if what is new in the pool is in order. -/
theorem PoolInv.mono (h : PoolInv config ttl p) (hg : Grows ttl p p')
    (hready : p'.cache.initialized = p.cache.initialized)
    (hlasting : p'.cache.ttlSeconds = p.cache.ttlSeconds)
    (hwithin : p'.cache.slots.toMap.Within (FromPut config ttl p'.puts))
    (hputs : ∀ u ∈ p'.puts, u ∈ p.puts ∨ PutOk config p' u)
    (hphases : ∀ w, p'.phase w = p.phase w ∨ PhaseOk config ttl p' (p'.phase w))
    (hanswers : ∀ a ∈ p'.answers, a ∈ p.answers ∨ AnswerOk config ttl p' a) :
    PoolInv config ttl p' where
  ready := hready.trans h.ready
  lasting := hlasting.trans h.lasting
  within := hwithin
  puts u hu := by
    rcases hputs u hu with hold | hnew
    · exact (h.puts u hold).mono hg
    · exact hnew
  phases w := by
    rcases hphases w with hold | hnew
    · rw [hold]
      exact (h.phases w).mono hg
    · exact hnew
  answers a ha := by
    rcases hanswers a ha with hold | hnew
    · exact (h.answers a hold).mono hg
    · exact hnew

/-- A step that leaves the cache alone. -/
theorem grows_of_cache_eq (hasked : p.asked ⊆ p'.asked) (hputs : p.puts ⊆ p'.puts)
    (hclock : p.clock ≤ p'.clock) (hcache : p'.cache = p.cache) : Grows ttl p p' where
  asked := hasked
  puts := hputs
  clock := hclock
  lasts k t _ h := by
    rw [hcache]
    exact h

end

/-! ## Reading -/

/-- What the cache answers was stored under the key by a put on record, less than a lifetime
ago. -/
theorem lookup_source {p : Pool W} (h : PoolInv config ttl p) {r : Request} {d : MetricData}
    (hget : p.lookup config r = some d) :
    ∃ u ∈ p.puts, u.req.key config = r.key config ∧ u.data = d ∧ u.putAt ≤ p.clock
      ∧ p.clock < u.putAt + lifetime ttl := by
  obtain ⟨d₀, e, hbind, hlt, hclone⟩ := (rrdCacheGet_eq_some h.ready).mp hget
  obtain ⟨u, hu, hkey, rfl, rfl⟩ := h.within _ _ _ hbind
  have hu' := h.puts u hu
  rw [cloneMetricData_of_fetch hu'.fetched] at hclone
  injection hclone with hclone
  exact ⟨u, hu, hkey, hclone, hu'.past, hlt⟩

/-- A key that lasts is answered. -/
theorem lookup_of_lastsUntil {p : Pool W} (h : PoolInv config ttl p) {r : Request} {t : Int}
    (hlast : p.cache.slots.toMap.LastsUntil (r.key config) t) (hnow : p.clock < t) :
    (p.lookup config r).isSome = true := by
  obtain ⟨d, e, hbind, hte⟩ := hlast
  obtain ⟨u, hu, _, rfl, _⟩ := h.within _ _ _ hbind
  have hget : p.lookup config r = some u.data :=
    (rrdCacheGet_eq_some h.ready).mpr
      ⟨u.data, e, hbind, by omega, cloneMetricData_of_fetch (h.puts u hu).fetched⟩
  rw [hget]
  rfl

/-! ## The step -/

variable [DecidableEq W]

theorem move_phase_or {p : Pool W} (w : W) (ph : Phase) (v : W) :
    (p.move w ph).phase v = p.phase v ∨ (p.move w ph).phase v = ph := by
  by_cases hv : v = w
  · subst hv
    exact Or.inr (Function.update_self _ _ _)
  · exact Or.inl (Function.update_of_ne hv _ _)

/-- A worker that goes on, with the rest of the pool as it was. -/
theorem poolInv_move {p : Pool W} (h : PoolInv config ttl p) (w : W) {ph : Phase}
    (hph : PhaseOk config ttl p ph) : PoolInv config ttl (p.move w ph) := by
  have hg : Grows ttl p (p.move w ph) :=
    grows_of_cache_eq (List.Subset.refl _) (List.Subset.refl _) le_rfl rfl
  refine h.mono hg rfl rfl h.within (fun u hu => Or.inl hu) ?_ (fun a ha => Or.inl ha)
  intro v
  rcases move_phase_or (p := p) w ph v with hv | hv
  · exact Or.inl hv
  · rw [hv]
    exact Or.inr (hph.mono hg)

/-- A worker that returns. -/
theorem poolInv_finish {p : Pool W} (h : PoolInv config ttl p) {a : Served W}
    (ha : AnswerOk config ttl p a) : PoolInv config ttl (p.finish a) := by
  have hg : Grows ttl p (p.finish a) :=
    grows_of_cache_eq (List.Subset.refl _) (List.Subset.refl _) le_rfl rfl
  refine h.mono hg rfl rfl h.within (fun u hu => Or.inl hu) ?_ ?_
  · intro v
    rcases move_phase_or (p := p) a.worker .idle v with hv | hv
    · exact Or.inl hv
    · right
      show PhaseOk config ttl (p.finish a) ((p.move a.worker .idle).phase v)
      rw [hv]
      trivial
  · intro b hb
    rcases List.mem_append.mp hb with hb | hb
    · exact Or.inl hb
    · rw [List.mem_singleton] at hb
      exact Or.inr (hb ▸ ha.mono hg)

/-- A worker that stores. -/
theorem poolInv_store {p : Pool W} (h : PoolInv config ttl p) {u : Put W}
    (hu : PutOk config p u) (hnow : u.putAt = p.clock) :
    PoolInv config ttl (p.store config u) := by
  have hmap : (p.store config u).cache.slots.toMap
      = p.cache.slots.toMap.put (u.req.key config) u.data (u.putAt + lifetime ttl) := by
    rw [← h.lasting]
    exact toMap_rrdCachePut h.ready u.data
  have hg : Grows ttl p (p.store config u) := by
    refine ⟨List.Subset.refl _, List.subset_append_left _ _, le_rfl, ?_⟩
    intro k t ht hlast
    rw [hmap]
    -- the new expiry is not before that of any put of the past
    exact hlast.put (fun _ => by omega)
  refine h.mono hg (by simp [store]) (by simp [store]) ?_ ?_ ?_ (fun a ha => Or.inl ha)
  · rw [hmap]
    refine (h.within.imp ?_).put ⟨u, List.mem_append_right _ List.mem_cons_self, rfl, rfl, rfl⟩
    rintro k d e ⟨v, hv, hrest⟩
    exact ⟨v, List.mem_append_left _ hv, hrest⟩
  · intro v hv
    rcases List.mem_append.mp hv with hv | hv
    · exact Or.inl hv
    · rw [List.mem_singleton] at hv
      exact Or.inr (hv ▸ hu.mono hg)
  · intro v
    rcases move_phase_or (p := p) u.worker (.stored u.req u.putAt) v with hv | hv
    · exact Or.inl hv
    · right
      show PhaseOk config ttl (p.store config u) ((p.move u.worker _).phase v)
      rw [hv]
      refine ⟨hu.asked, hu.past, ?_⟩
      rw [hmap]
      exact TtlMap.lastsUntil_put

/-- **Every step keeps the invariant.** -/
theorem poolInv_step {p p' : Pool W} (h : PoolInv config ttl p) (hs : Step config p p') :
    PoolInv config ttl p' := by
  have hphase : ∀ {w ph}, p.phase w = ph → PhaseOk config ttl p ph := by
    rintro w ph rfl
    exact h.phases w
  cases hs with
  | tick hclock =>
      exact h.mono (grows_of_cache_eq (List.Subset.refl _) (List.Subset.refl _) hclock rfl) rfl rfl
        h.within (fun u hu => Or.inl hu) (fun w => Or.inl rfl) (fun a ha => Or.inl ha)
  | @start w r hph hsrc =>
      have hask : PoolInv config ttl (p.ask r) :=
        h.mono (grows_of_cache_eq (List.subset_append_left _ _) (List.Subset.refl _) le_rfl rfl)
          rfl rfl h.within (fun u hu => Or.inl hu) (fun w => Or.inl rfl) (fun a ha => Or.inl ha)
      exact poolInv_move hask w (List.mem_append_right _ List.mem_cons_self)
  | hit hph hget =>
      refine poolInv_finish h ⟨hphase hph, ?_, ?_⟩
      · intro d hd
        injection hd with hd
        exact hd ▸ lookup_source h hget
      · intro t ht
        exact absurd ht (by simp)
  | @miss w r hph hget =>
      have hasked : r ∈ p.asked := hphase hph
      exact poolInv_move h w (show PhaseOk config ttl p (.missed r) from hasked)
  | @fetch w r d world hph hfetch =>
      have hasked : r ∈ p.asked := hphase hph
      exact poolInv_move h w
        (show PhaseOk config ttl p (.fetched r world p.clock d) from ⟨hasked, hfetch⟩)
  | fail world hph hfetch =>
      refine poolInv_finish h ⟨hphase hph, ?_, ?_⟩
      · intro d hd
        exact absurd hd (by simp)
      · intro t ht
        exact absurd ht (by simp)
  | put hph =>
      obtain ⟨hasked, hfetch⟩ := hphase hph
      exact poolInv_store h ⟨hasked, hfetch, le_rfl⟩ rfl
  | reget hph =>
      obtain ⟨hasked, hpast, hlast⟩ := hphase hph
      refine poolInv_finish h ⟨hasked, fun d hd => lookup_source h hd, ?_⟩
      intro t ht hlt
      injection ht with ht
      exact lookup_of_lastsUntil h (ht ▸ hlast) hlt

theorem poolInv_reachable {p : Pool W} (hr : Reachable config ttl p) : PoolInv config ttl p := by
  induction hr with
  | init clock => exact poolInv_init config ttl clock
  | tail _ hs ih => exact poolInv_step ih hs

/-! ## What the workers can rely on -/

/-- Requests of the run that share a key name one file and one period. -/
def KeysSeparate (config : Config) (asked : List Request) : Prop :=
  ∀ a ∈ asked, ∀ b ∈ asked, a.key config = b.key config →
    a.rrdPath config = b.rrdPath config ∧ a.period = b.period

/-- They do so when no key is cut. -/
theorem keysSeparate_of_fits {asked : List Request}
    (h : ∀ r ∈ asked, KeyFits (r.rrdPath config) r.period) : KeysSeparate config asked :=
  fun a ha b hb hkey => eq_of_buildCacheKey_eq (h a ha) (h b hb) hkey

/-- The data was fetched for the file and the period of the answer, and stored less than a
lifetime before it was read. -/
def FetchedForSame (config : Config) (ttl : Int) (p : Pool W) (a : Served W) (d : MetricData) :
    Prop :=
  ∃ u ∈ p.puts, u.req.rrdPath config = a.req.rrdPath config ∧ u.req.period = a.req.period
    ∧ u.req.fetch config u.world u.fetchedAt = some d ∧ u.putAt ≤ a.readAt
    ∧ a.readAt < u.putAt + lifetime ttl

/--
**What any number of workers get from one cache**, whatever the order of their steps.

As long as no two requests of the run share a key without naming the same file and
period, every answer with data was fetched for its own file and period, and stored less
than a lifetime before it was read. In every run a call that read less than a lifetime
after its own store has data, and no key stands twice in the table.
-/
theorem workers_served {p : Pool W} (hr : Reachable config ttl p) :
    (KeysSeparate config p.asked →
        ∀ a ∈ p.answers, ∀ d, a.data = some d → FetchedForSame config ttl p a d)
      ∧ (∀ a ∈ p.answers, ∀ t, a.storedAt = some t → a.readAt < t + lifetime ttl →
        a.data.isSome = true)
      ∧ p.cache.slots.keys.Nodup := by
  have h := poolInv_reachable hr
  refine ⟨?_, fun a ha => (h.answers a ha).own, p.cache.slots.nodup_keys⟩
  intro hkeys a ha d hd
  have hok := h.answers a ha
  obtain ⟨u, hu, hkey, rfl, hpast, hfresh⟩ := hok.source d hd
  obtain ⟨hpath, hperiod⟩ := hkeys _ (h.puts u hu).asked _ hok.asked hkey
  exact ⟨u, hu, hpath, hperiod, (h.puts u hu).fetched, hpast, hfresh⟩

/-- A request of one of the sample metrics. -/
def netRequest (period : Int) : Request := ⟨netMetric, none, period⟩

/-- Two workers miss together, and the second one stores between the first one's put and its
second get. -/
theorem workers_served_overwritten :
    ∃ p : Pool Bool, Reachable sharedFile 5 p ∧ p.puts.map Put.worker = [false, true]
      ∧ (∃ a ∈ p.answers, a.worker = false ∧ a.data.isSome = true
        ∧ ∀ d, a.data = some d → FetchedForSame sharedFile 5 p a d)
      ∧ p.cache.slots.keys.Nodup := by
  obtain ⟨d, hd⟩ : ∃ d, (netRequest 60).fetch sharedFile sampleWorld 100 = some d :=
    Option.isSome_iff_exists.mp (by decide +kernel)
  have h0 : Reachable sharedFile 5 (Pool.init 5 100 : Pool Bool) := Reachable.init 100
  have hstarted := (h0.tail (Step.start (w := false) (r := netRequest 60) rfl rfl)).tail
    (Step.start (w := true) (r := netRequest 60) rfl rfl)
  have hmissed := (hstarted.tail (Step.miss (w := false) rfl rfl)).tail
    (Step.miss (w := true) rfl rfl)
  have hfetched := (hmissed.tail (Step.fetch sampleWorld (w := false) rfl hd)).tail
    (Step.fetch sampleWorld (w := true) rfl hd)
  have hstored := (hfetched.tail (Step.put (w := false) rfl)).tail (Step.put (w := true) rfl)
  have hread := hstored.tail (Step.reget (w := false) rfl)
  have hkeys : KeysSeparate sharedFile [netRequest 60, netRequest 60] :=
    keysSeparate_of_fits (by decide +kernel)
  obtain ⟨hsame, hown, hnodup⟩ := workers_served hread
  have hnow : (100 : Int) < 100 + lifetime 5 := by decide
  exact ⟨_, hread, rfl, ⟨_, List.mem_append_right _ List.mem_cons_self, rfl,
    hown _ (List.mem_append_right _ List.mem_cons_self) 100 rfl hnow,
    hsame hkeys _ (List.mem_append_right _ List.mem_cons_self)⟩, hnodup⟩

/-- A base path and a file name that fill the 512-byte buffer together. -/
def longPathMetric : MetricConfig where
  endpoint := str "long"
  rrdPath := List.replicate 255 (ch 'b')

def longPathConfig : Config where
  rrdBasePath := ch '/' :: List.replicate 254 (ch 'a')
  metrics := [longPathMetric]

/-- A request for some seconds of that file. -/
def longPathRequest (period : Int) : Request := ⟨longPathMetric, none, period⟩

/-- The key of such a path is the path: nothing of the period fits. -/
theorem key_longPath :
    (longPathRequest 60).key longPathConfig = (longPathRequest 3600).key longPathConfig := by
  decide +kernel

/--
One worker stores a minute of such a file, another asks for an hour of it and gets that
minute: nobody has fetched the hour.
-/
theorem workers_mix_periods :
    ∃ p : Pool Bool, Reachable longPathConfig 5 p
      ∧ ∃ a ∈ p.answers, ∃ d, a.data = some d ∧ ¬ FetchedForSame longPathConfig 5 p a d := by
  obtain ⟨d, hd⟩ : ∃ d, (longPathRequest 60).fetch longPathConfig sampleWorld 100 = some d :=
    Option.isSome_iff_exists.mp (by decide +kernel)
  have h0 : Reachable longPathConfig 5 (Pool.init 5 100 : Pool Bool) := Reachable.init 100
  have hminute := ((h0.tail (Step.start (w := false) (r := longPathRequest 60) rfl rfl)).tail
    (Step.miss (w := false) rfl rfl)).tail (Step.fetch sampleWorld (w := false) rfl hd)
  have hstored := hminute.tail (Step.put (w := false) rfl)
  have hhour := hstored.tail (Step.start (w := true) (r := longPathRequest 3600) rfl rfl)
  have hinv := poolInv_reachable hhour
  have hnow : (100 : Int) < 100 + lifetime 5 := by decide
  -- the first worker's store lasts, and it stands under the key of the hour
  obtain ⟨_, _, hlast⟩ := hinv.phases false
  rw [key_longPath] at hlast
  obtain ⟨x, hx⟩ := Option.isSome_iff_exists.mp (lookup_of_lastsUntil hinv hlast hnow)
  have hread := hhour.tail (Step.hit (w := true) rfl hx)
  refine ⟨_, hread, _, List.mem_append_right _ List.mem_cons_self, x, rfl, ?_⟩
  rintro ⟨u, hu, _, hperiod, _⟩
  rcases List.mem_append.mp hu with hu | hu
  · exact absurd hu List.not_mem_nil
  · rw [List.mem_singleton] at hu
    subst hu
    have : (60 : Int) = 3600 := hperiod
    omega

end Svgd.Backend
