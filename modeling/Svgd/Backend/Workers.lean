import Svgd.Backend.MetricSource
import Mathlib.Logic.Relation

/-!
# Workers that share the cache

The LSRP server runs `metric_source_fetch` in several threads over one cache. Its cache
functions take the cache lock, so for an RRD metric a call is a sequence of atomic
steps: the first `cache_get`, the fetch, `cache_put`, the second `cache_get`. A `Pool` is
a set of workers that each stand somewhere in such a call, and a `Step` moves the clock
or one worker.

`asked`, `puts` and `answers` are on record for the proofs only; no step looks at them.
`step_metricSourceFetch` says that a call whose steps are not interrupted is
`metricSourceFetch`.
-/

namespace Svgd.Backend

open Lib

/-- Where a worker stands. -/
inductive Phase where
  | idle
  /-- Before the first `cache_get`. -/
  | started (r : Request)
  /-- Before the fetch. -/
  | missed (r : Request)
  /-- Before `cache_put`, with what was fetched at `now` from what `w` saw. -/
  | fetched (r : Request) (w : RrdWorld) (now : Int) (d : MetricData)
  /-- Before the second `cache_get`. -/
  | stored (r : Request) (putAt : Int)

/-- A store on record. -/
structure Put (W : Type) where
  worker : W
  req : Request
  world : RrdWorld
  fetchedAt : Int
  data : MetricData
  putAt : Int

/-- A finished call on record; `storedAt` is the moment of its own store, if it made one. -/
structure Served (W : Type) where
  worker : W
  req : Request
  storedAt : Option Int
  readAt : Int
  data : Option MetricData

/-- The workers, the cache they share, and the clock. -/
structure Pool (W : Type) where
  cache : Cache
  clock : Int
  phase : W → Phase
  asked : List Request
  puts : List (Put W)
  answers : List (Served W)

variable {W : Type} [DecidableEq W]

namespace Pool

/-- All workers are idle, and the cache has just been initialised. -/
def init (ttl clock : Int) : Pool W where
  cache := rrdCacheInit {} ttl
  clock := clock
  phase _ := .idle
  asked := []
  puts := []
  answers := []

/-- Time passes. -/
def tick (p : Pool W) (t : Int) : Pool W := { p with clock := t }

/-- A request comes in. -/
def ask (p : Pool W) (r : Request) : Pool W := { p with asked := p.asked ++ [r] }

/-- A worker goes on. -/
def move (p : Pool W) (w : W) (ph : Phase) : Pool W :=
  { p with phase := Function.update p.phase w ph }

/-- A worker returns from its call. -/
def finish (p : Pool W) (a : Served W) : Pool W :=
  { p.move a.worker .idle with answers := p.answers ++ [a] }

/-- `cache_get` for a request. -/
def lookup (config : Config) (p : Pool W) (r : Request) : Option MetricData :=
  rrdCacheGet p.cache p.clock (some (r.rrdPath config)) r.period

/-- `cache_put` of what a worker fetched. -/
def store (config : Config) (p : Pool W) (u : Put W) : Pool W :=
  { p.move u.worker (.stored u.req u.putAt) with
    cache := rrdCachePut p.cache u.putAt (some (u.req.rrdPath config)) u.req.period (some u.data)
    puts := p.puts ++ [u] }

/-- One atomic step of the pool. -/
inductive Step (config : Config) : Pool W → Pool W → Prop
  | tick {p : Pool W} {t : Int} (hclock : p.clock ≤ t) : Step config p (p.tick t)
  | start {p : Pool W} {w : W} {r : Request} (hphase : p.phase w = .idle)
      (hsrc : r.metric.source = .rrd) : Step config p ((p.ask r).move w (.started r))
  | hit {p : Pool W} {w : W} {r : Request} {d : MetricData} (hphase : p.phase w = .started r)
      (hget : p.lookup config r = some d) :
      Step config p (p.finish ⟨w, r, none, p.clock, some d⟩)
  | miss {p : Pool W} {w : W} {r : Request} (hphase : p.phase w = .started r)
      (hget : p.lookup config r = none) : Step config p (p.move w (.missed r))
  | fetch {p : Pool W} {w : W} {r : Request} {d : MetricData} (world : RrdWorld)
      (hphase : p.phase w = .missed r) (hfetch : r.fetch config world p.clock = some d) :
      Step config p (p.move w (.fetched r world p.clock d))
  | fail {p : Pool W} {w : W} {r : Request} (world : RrdWorld)
      (hphase : p.phase w = .missed r) (hfetch : r.fetch config world p.clock = none) :
      Step config p (p.finish ⟨w, r, none, p.clock, none⟩)
  | put {p : Pool W} {w : W} {r : Request} {world : RrdWorld} {now : Int} {d : MetricData}
      (hphase : p.phase w = .fetched r world now d) :
      Step config p (p.store config ⟨w, r, world, now, d, p.clock⟩)
  | reget {p : Pool W} {w : W} {r : Request} {t : Int} (hphase : p.phase w = .stored r t) :
      Step config p (p.finish ⟨w, r, some t, p.clock, p.lookup config r⟩)

/-- The pools that can come about after `rrd_cache_init`. -/
inductive Reachable (config : Config) (ttl : Int) : Pool W → Prop
  | init (clock : Int) : Reachable config ttl (Pool.init ttl clock)
  | tail {p p' : Pool W} (hr : Reachable config ttl p) (hs : Step config p p') :
      Reachable config ttl p'

theorem Reachable.run {config : Config} {ttl : Int} {p p' : Pool W}
    (hr : Reachable config ttl p) (hs : Relation.ReflTransGen (Step config) p p') :
    Reachable config ttl p' := by
  induction hs with
  | refl => exact hr
  | tail _ hs ih => exact ih.tail hs

/-! ## An uninterrupted call -/

section

variable {config : Config} {p : Pool W} {w : W} {r : Request}

@[simp] theorem move_phase_self (ph : Phase) : (p.move w ph).phase w = ph :=
  Function.update_self _ _ _

/-- **The steps are those of `metric_source_fetch`**: an idle worker whose call is not
interrupted leaves the cache, and returns the data, of that function. -/
theorem step_metricSourceFetch {t : CallTimes} {b : Backends} (hidle : p.phase w = .idle)
    (hsrc : r.metric.source = .rrd) (hget : p.clock ≤ t.get) (hnow : t.get ≤ t.now)
    (hput : t.now ≤ t.put) (hreget : t.put ≤ t.reget) :
    ∃ p', Relation.ReflTransGen (Step config) p p' ∧ p'.phase = p.phase
      ∧ p'.cache = (metricSourceFetch config r true t b p.cache).cache
      ∧ ∃ a, p'.answers = p.answers ++ [a] ∧ a.worker = w ∧ a.req = r
        ∧ a.data = (metricSourceFetch config r true t b p.cache).data := by
  -- only this worker moves, and it ends where it began
  have hback : Function.update p.phase w .idle = p.phase := by
    rw [← hidle, Function.update_eq_self]
  have hstarted : Relation.ReflTransGen (Step config) p
      (((p.ask r).move w (.started r)).tick t.get) :=
    (Relation.ReflTransGen.single (Step.start hidle hsrc)).tail (Step.tick hget)
  cases hlook : rrdCacheGet p.cache t.get (some (r.rrdPath config)) r.period with
  | some d =>
      rw [metricSourceFetch_hit hsrc hlook]
      exact ⟨_, hstarted.tail (Step.hit (move_phase_self _) hlook),
        by simp [finish, move, tick, ask, hback], rfl, _, rfl, rfl, rfl, rfl⟩
  | none =>
      have hmissed := (hstarted.tail (Step.miss (w := w) (move_phase_self _) hlook)).tail
        (Step.tick hnow)
      cases hfetch : r.fetch config b.rrd t.now with
      | none =>
          rw [metricSourceFetch_failed hsrc hlook hfetch]
          exact ⟨_, hmissed.tail (Step.fail b.rrd (move_phase_self _) hfetch),
            by simp [finish, move, tick, ask, hback], rfl, _, rfl, rfl, rfl, rfl⟩
      | some d =>
          rw [metricSourceFetch_stored hsrc hlook hfetch]
          have hfetched := (hmissed.tail (Step.fetch b.rrd (w := w) (move_phase_self _) hfetch)).tail
            (Step.tick hput)
          have hstored := (hfetched.tail (Step.put (w := w) (move_phase_self _))).tail
            (Step.tick hreget)
          exact ⟨_, hstored.tail (Step.reget (w := w) (move_phase_self _)),
            by simp [finish, store, move, tick, ask, hback], rfl, _, rfl, rfl, rfl, rfl⟩

end

end Pool

end Svgd.Backend
