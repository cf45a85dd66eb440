import Svgd.Proof.CacheRefine

/-!
# What a cache key tells about its request

A key is the path, a colon and the period, cut at 511 bytes. The period holds no colon, so
the last colon of a text that is not cut gives the pair back, whatever the path contains
(`eq_of_buildCacheKey_eq`). A key of 511 bytes gives nothing back: it is also the key of the
path that has these bytes itself, for every period.

The cache looks at keys only. So a request shares its data with another one exactly when
it shares its key, and that is exactly when its text has 511 bytes or more.
-/

namespace Svgd.Backend

open Lib

/-- A path as `metric_source_fetch` may build it in its 512 bytes, and an `int`. -/
structure IsRequest (path : Bytes) (period : Int) : Prop where
  length_le : path.length ≤ 511
  no_nul : (0 : UInt8) ∉ path
  le_period : -2 ^ 31 ≤ period
  period_lt : period < 2 ^ 31

/-- The text of the key has a byte to spare. -/
def KeyHasRoom (path : Bytes) (period : Int) : Prop :=
  path.length + 1 + (printInt period).length ≤ 510

instance (path : Bytes) (period : Int) : Decidable (KeyHasRoom path period) :=
  inferInstanceAs (Decidable (_ ≤ _))

/-- The request has a key of its own. -/
def KeyAlone (path : Bytes) (period : Int) : Prop :=
  ∀ q n, IsRequest q n → buildCacheKey q n = buildCacheKey path period → q = path ∧ n = period

theorem length_keyText (path : Bytes) (period : Int) :
    (path ++ str ":" ++ printInt period).length = path.length + 1 + (printInt period).length := by
  have hcolon : (str ":").length = 1 := rfl
  rw [List.length_append, List.length_append, hcolon]

theorem length_buildCacheKey (path : Bytes) (period : Int) :
    (buildCacheKey path period).length = min 511 (path.length + 1 + (printInt period).length) := by
  unfold buildCacheKey snprintf cacheKeySize
  rw [List.length_take, length_keyText]

theorem zero_not_mem_buildCacheKey {path : Bytes} (h : (0 : UInt8) ∉ path) (period : Int) :
    (0 : UInt8) ∉ buildCacheKey path period := by
  intro hm
  have hdigits : (0 : UInt8) ∉ printInt period := by
    intro hz
    rcases mem_printInt hz with hd | hd
    · exact absurd hd (by decide)
    · exact absurd hd (by decide)
  have htext := List.mem_of_mem_take hm
  rw [List.mem_append, List.mem_append] at htext
  rcases htext with (hp | hc) | hd
  · exact h hp
  · exact absurd hc (by decide)
  · exact hdigits hd

/-- A path of 511 bytes is its own key, for every period. -/
theorem buildCacheKey_long {path : Bytes} (h : path.length = 511) (period : Int) :
    buildCacheKey path period = path := by
  unfold buildCacheKey snprintf cacheKeySize
  rw [List.append_assoc, List.take_append_of_le_length (by omega), List.take_of_length_le (by omega)]

/-- A key with a byte to spare names its request. -/
theorem keyAlone_of_room {path : Bytes} {period : Int} (h : KeyHasRoom path period) :
    KeyAlone path period := by
  intro q n _ heq
  unfold KeyHasRoom at h
  have hlen : min 511 (q.length + 1 + (printInt n).length)
      = min 511 (path.length + 1 + (printInt period).length) := by
    rw [← length_buildCacheKey, ← length_buildCacheKey, heq]
  have hq : KeyFits q n := by
    unfold KeyFits
    omega
  have hp : KeyFits path period := by
    unfold KeyFits
    omega
  exact eq_of_buildCacheKey_eq hq hp heq

/-- A request without room shares its key with another one. -/
theorem exists_same_key {path : Bytes} {period : Int} (h : IsRequest path period)
    (hroom : ¬ KeyHasRoom path period) :
    ∃ q n, IsRequest q n ∧ buildCacheKey q n = buildCacheKey path period
      ∧ ¬ (q = path ∧ n = period) := by
  have hlen : (buildCacheKey path period).length = 511 := by
    unfold KeyHasRoom at hroom
    rw [length_buildCacheKey]
    omega
  have hnul := zero_not_mem_buildCacheKey h.no_nul period
  -- the path that reads like the key, with another period
  by_cases hzero : period = 0
  · refine ⟨_, 1, ⟨by omega, hnul, by decide, by decide⟩, buildCacheKey_long hlen 1, ?_⟩
    rintro ⟨-, hone⟩
    omega
  · refine ⟨_, 0, ⟨by omega, hnul, by decide, by decide⟩, buildCacheKey_long hlen 0, ?_⟩
    rintro ⟨-, hn⟩
    exact hzero hn.symm

/-! ## What the cache gives out -/

/-- Every path and period that a call passes is a request. -/
def CacheOp.Requests : CacheOp → Prop
  | .put (some path) period _ => IsRequest path period
  | .get (some path) period => IsRequest path period
  | _ => True

/-- Whatever calls were made, what a `get` returns for the request was put for it. -/
def ServesOwn (path : Bytes) (period : Int) : Prop :=
  ∀ ops : List (Int × CacheOp), (∀ op ∈ ops, op.2.Requests) → ∀ now data,
    rrdCacheGet (runOps ops) now (some path) period = some data →
      ∃ t d, (t, CacheOp.put (some path) period (some d)) ∈ ops
        ∧ data = { d with param1 := some (d.param1.getD []) }

/-- The latest `put` of a key is a call of the history. -/
theorem mem_of_latestPut {key : Bytes} {t ttl : Int} {d : MetricData} :
    ∀ {h : List (Int × CacheOp)}, latestPut key h = some (t, ttl, d) →
      ∃ path period, (t, .put (some path) period (some d)) ∈ h ∧ buildCacheKey path period = key
  | [], hl => absurd hl (by simp [latestPut])
  | (now, op) :: h, hl => by
      have hrest : latestPut key h = some (t, ttl, d) → ∃ path period,
          (t, .put (some path) period (some d)) ∈ (now, op) :: h
            ∧ buildCacheKey path period = key := by
        intro hl
        obtain ⟨path, period, hmem, hkey⟩ := mem_of_latestPut hl
        exact ⟨path, period, List.mem_cons_of_mem _ hmem, hkey⟩
      cases op with
      | free => exact absurd hl (by simp [latestPut])
      | init _ => exact hrest hl
      | get _ _ => exact hrest hl
      | put path period data =>
          cases path with
          | none => exact hrest hl
          | some path =>
              cases data with
              | none => exact hrest hl
              | some d' =>
                  rw [latestPut] at hl
                  split at hl
                  · rename_i hput
                    obtain ⟨rfl, -, rfl⟩ : now = t ∧ _ ∧ d' = d := by simpa using hl
                    exact ⟨path, period, List.mem_cons_self, hput.2⟩
                  · exact hrest hl

theorem servesOwn_of_keyAlone {path : Bytes} {period : Int} (h : KeyAlone path period) :
    ServesOwn path period := by
  intro ops hreq now data hget
  have hr := represents_runOps ops
  have hon : (runOps ops).initialized = true := by
    by_contra hoff
    unfold rrdCacheGet at hget
    dsimp only at hget
    rw [if_neg hoff] at hget
    cases hget
  obtain ⟨d, e, hbind, -, hclone⟩ := (rrdCacheGet_eq_some hon).mp hget
  rw [hr.map] at hbind
  obtain ⟨⟨t, ttl, d'⟩, hlast, hpair⟩ := Option.map_eq_some_iff.mp hbind
  obtain ⟨rfl, -⟩ := Prod.mk.inj hpair
  obtain ⟨q, n, hmem, hkey⟩ := mem_of_latestPut hlast
  have hmem' := List.mem_reverse.mp hmem
  obtain ⟨rfl, rfl⟩ := h q n (hreq _ hmem') hkey
  exact ⟨t, d', hmem', (cloneMetricData_some hclone).2⟩

/-- Two requests with one key: the data of the one is returned for the other. -/
theorem get_of_same_key {path q : Bytes} {period n : Int} {d : MetricData}
    (hkey : buildCacheKey q n = buildCacheKey path period)
    (hnamed : d.series.all (·.name.isSome) = true) :
    rrdCacheGet (runOps [(0, .init 5), (0, .put (some q) n (some d))]) 0 (some path) period
      = some { d with param1 := some (d.param1.getD []) } := by
  have hon : (rrdCacheInit {} 5).initialized = true := rfl
  have hrun : runOps [(0, .init 5), (0, .put (some q) n (some d))]
      = rrdCachePut (rrdCacheInit {} 5) 0 (some q) n (some d) := rfl
  rw [hrun, rrdCacheGet_eq_some (by rw [initialized_rrdCachePut]; exact hon)]
  refine ⟨d, 0 + 5, ?_, by decide, cloneMetricData_of_named hnamed⟩
  rw [toMap_rrdCachePut hon, TtlMap.put, if_pos hkey]
  rfl

/--
**A request has its key, and its data, to itself exactly if the key's text has a byte to
spare.**

The path may be any text of up to 511 bytes, colons and digits included, and the period any
`int`. When path, colon and period have at most 510 bytes together, no other request has the
same key, and whatever calls are made, the cache returns for the request what was put for it.
From 511 bytes on another request has the same key, and its data is returned.
-/
theorem cache_key_alone_iff {path : Bytes} {period : Int} (h : IsRequest path period) :
    (KeyAlone path period ↔ KeyHasRoom path period)
      ∧ (ServesOwn path period ↔ KeyHasRoom path period) := by
  have hshared : ¬ KeyHasRoom path period → ∃ q n, IsRequest q n
      ∧ buildCacheKey q n = buildCacheKey path period ∧ ¬ (q = path ∧ n = period) :=
    exists_same_key h
  refine ⟨⟨fun halone => ?_, keyAlone_of_room⟩,
    fun hown => ?_, fun hroom => servesOwn_of_keyAlone (keyAlone_of_room hroom)⟩
  · by_contra hroom
    obtain ⟨q, n, hq, hkey, hne⟩ := hshared hroom
    exact hne (halone q n hq hkey)
  · by_contra hroom
    obtain ⟨q, n, hq, hkey, hne⟩ := hshared hroom
    have hreq : ∀ op ∈ [((0 : Int), CacheOp.init 5), (0, .put (some q) n (some (sampleData [])))],
        op.2.Requests := by
      intro op hop
      rcases List.mem_pair.mp hop with rfl | rfl
      · trivial
      · exact hq
    obtain ⟨t, d, hmem, -⟩ := hown _ hreq 0 _ (get_of_same_key hkey rfl)
    rcases List.mem_pair.mp hmem with heq | heq
    · simp at heq
    · simp only [Prod.mk.injEq, CacheOp.put.injEq, Option.some.injEq] at heq
      exact hne ⟨heq.2.1.symm, heq.2.2.1.symm⟩

/-- A path with colons and digits and a negative period. -/
theorem cache_key_alone_colons :
    KeyAlone (str "/r/a:60") (-3600) ∧ ServesOwn (str "/r/a:60") (-3600) := by
  have hreq : IsRequest (str "/r/a:60") (-3600) := ⟨by decide, by decide, by decide, by decide⟩
  have hroom : KeyHasRoom (str "/r/a:60") (-3600) := by decide +kernel
  obtain ⟨halone, hown⟩ := cache_key_alone_iff hreq
  exact ⟨halone.mpr hroom, hown.mpr hroom⟩

/-- A path of 511 bytes has one key for every period, and gets the data of another one. -/
theorem cache_key_periods_collide :
    let path := ch '/' :: List.replicate 510 (ch 'a')
    IsRequest path 60 ∧ IsRequest path 3600
      ∧ buildCacheKey path 60 = buildCacheKey path 3600
      ∧ rrdCacheGet (runOps [(0, .init 5), (0, .put (some path) 60 (some (sampleData (str "cpu"))))])
          0 (some path) 3600 = some { sampleData (str "cpu") with param1 := some [] } := by
  intro path
  have hlen : path.length = 511 := by rw [List.length_cons, List.length_replicate]
  have hnul : (0 : UInt8) ∉ path := by decide +kernel
  have hkey : buildCacheKey path 60 = buildCacheKey path 3600 := by
    rw [buildCacheKey_long hlen, buildCacheKey_long hlen]
  exact ⟨⟨by omega, hnul, by decide, by decide⟩, ⟨by omega, hnul, by decide, by decide⟩, hkey,
    get_of_same_key hkey rfl⟩

end Svgd.Backend
