import Svgd.Proof.DatasourceStore

/-!
# Saving and loading the datasources

The writer escapes nothing, and the reader searches for quoted words and for braces
wherever they stand. Both only meet at quotes: stored texts have none, so the file is
a sequence of pieces between quotes, and a search for `"host"` finds the first piece
that is the word, key or value. Braces are the other way in: the next object starts at
the first `{` behind the first `}`, which may both stand inside a name or a host.

`Datasource.Reloadable` says that neither happens. A list of such datasources is read
back as it was written, and a run that posts only such datasources never stores others.
-/

namespace Svgd.Gate

open Lib

/-- No text of the datasource misleads the reader of the file. -/
structure Datasource.Reloadable (d : Datasource) : Prop where
  /-- The value would be taken for the key of the port. -/
  name_port : d.name ≠ str "port"
  /-- The value would be taken for the key of the host, and the key for its value. -/
  name_host : d.name = str "host" → d.host = str "host"
  /-- Behind the first closing brace of the two texts no brace opens. -/
  braces : ∀ t ∈ strchr (d.name ++ d.host) (ch '\x7d'), ch '\x7b' ∉ t

/-! ## The file in pieces -/

/-- The object of a datasource from its brace on, with the text `r` behind it. -/
def objectText (d : Datasource) (r : Bytes) : Bytes :=
  ch '\x7b' :: ch '"' :: (str "name" ++ ch '"' :: (str ": " ++ ch '"' :: (d.name ++ ch '"' ::
    (str ", " ++ ch '"' :: (str "host" ++ ch '"' :: (str ": " ++ ch '"' :: (d.host ++ ch '"' ::
    (str ", " ++ ch '"' :: (str "port" ++ ch '"' :: (str ": " ++ (printInt d.port ++
      ch '\x7d' :: r)))))))))))

/-- What follows an object: the objects of the remaining datasources, then `tail`. -/
def afterObject (tail : Bytes) : List Datasource → Bytes
  | [] => str "\n" ++ tail
  | e :: rest => str ",\n    " ++ objectText e (afterObject tail rest)

theorem savedItem_append (d : Datasource) (r : Bytes) :
    savedItem d ++ r = str "    " ++ objectText d r := by
  have h1 : str "    \x7b\"name\": \"" = str "    " ++ ([ch '\x7b', ch '"'] ++ (str "name"
      ++ (ch '"' :: (str ": " ++ [ch '"'])))) := rfl
  have h2 : str "\", \"host\": \"" = ch '"' :: (str ", " ++ ch '"' :: (str "host"
      ++ (ch '"' :: (str ": " ++ [ch '"'])))) := rfl
  have h3 : str "\", \"port\": " = ch '"' :: (str ", " ++ ch '"' :: (str "port"
      ++ (ch '"' :: str ": "))) := rfl
  have h4 : str "\x7d" = [ch '\x7d'] := rfl
  rw [savedItem, objectText, h1, h2, h3, h4]
  simp only [List.append_assoc, List.cons_append, List.nil_append]

theorem savedItems_append (tail : Bytes) : ∀ (d : Datasource) (rest : List Datasource),
    savedItems (d :: rest) ++ tail = str "    " ++ objectText d (afterObject tail rest)
  | d, [] => by
      rw [savedItems, List.append_assoc, savedItem_append, afterObject]
  | d, e :: rest => by
      have hsep : str ",\n    " = str ",\n" ++ str "    " := rfl
      rw [savedItems, List.append_assoc, List.append_assoc, savedItems_append tail e rest,
        savedItem_append, afterObject, hsep, List.append_assoc]

/-! ## Reading one object -/

/-- A key that is found is followed by its value, whatever stands between the two. -/
theorem fileString_of_find {text key gap v s : Bytes} {size : Nat}
    (hfind : strstr text key = some (key ++ (gap ++ ch '"' :: (v ++ ch '"' :: s))))
    (hgap : ch '"' ∉ gap) (hv : ch '"' ∉ v) (hsize : v.length < size) :
    fileString text key size = some v := by
  unfold fileString
  rw [hfind]
  dsimp only
  rw [List.drop_left, strchr_append hgap]
  dsimp only
  rw [List.drop_succ_cons, List.drop_zero, strchr_append hv]
  dsimp only
  rw [upTo_append, if_pos hsize]

theorem bodyPort_of_find {text g s : Bytes}
    (hfind : strstr text (str "\"port\"") = some (str "\"port\"" ++ (g ++ ch ':' :: s)))
    (hgap : ch ':' ∉ g) : bodyPort text = atoi s := by
  have hlen : (str "\"port\"").length = 6 := rfl
  unfold bodyPort
  rw [hfind]
  dsimp only
  rw [← hlen, List.drop_left, strchr_append hgap]
  rfl

section

variable {d : Datasource} (hv : d.Valid) (r : Bytes)

include hv

theorem objectText_name : fileString (objectText d r) (str "\"name\"") maxDsNameLen = some d.name :=
  fileString_of_find (strstr_marked_hit (u := [ch '\x7b']) (by decide) (str "name") _) (by decide)
    hv.name_no_quote (by have := hv.name_length; unfold maxDsNameLen; omega)

theorem objectText_host (hr : d.Reloadable) :
    fileString (objectText d r) (str "\"host\"") maxDsHostLen = some d.host := by
  have hkey : str "\"host\"" = marked (ch '"') (str "host") := rfl
  have hlen : d.host.length < maxDsHostLen := by
    have := hv.host_length
    unfold maxDsHostLen
    omega
  -- the key and the colon before the name are passed
  have hskip : strstr (objectText d r) (str "\"host\"")
      = strstr ([] ++ ch '"' :: (d.name ++ ch '"' :: (str ", " ++ ch '"' :: (str "host" ++ ch '"' ::
          (str ": " ++ ch '"' :: (d.host ++ ch '"' :: (str ", " ++ ch '"' :: (str "port" ++ ch '"' ::
          (str ": " ++ (printInt d.port ++ ch '\x7d' :: r)))))))))) (str "\"host\"") := by
    rw [hkey, objectText]
    refine (strstr_marked_skip (u := [ch '\x7b']) (by decide) (by decide) (by decide)
      (by decide)).trans ?_
    exact strstr_marked_skip (u := []) (by decide) (by decide) (by decide) (by decide)
  by_cases hname : d.name = str "host"
  · rw [hname] at hskip
    rw [hr.name_host hname]
    exact fileString_of_find (hskip.trans (strstr_marked_hit (by simp) (str "host") _))
      (by decide : ch '"' ∉ str ", ") (by decide) (by decide)
  · have hfind := (hskip.trans (strstr_marked_skip (by simp) hv.name_no_quote (by decide)
      hname)).trans (strstr_marked_skip (u := []) (by simp) (by decide) (by decide) (by decide))
    exact fileString_of_find (hfind.trans (strstr_marked_hit (u := []) (by simp) (str "host") _))
      (by decide : ch '"' ∉ str ": ") hv.host_no_quote hlen

theorem objectText_port (hr : d.Reloadable) : bodyPort (objectText d r) = d.port := by
  have hkey : str "\"port\"" = marked (ch '"') (str "port") := rfl
  have hread : atoi (str " " ++ (printInt d.port ++ ch '\x7d' :: r)) = d.port := by
    have hmin := hv.port_pos
    have hmax := hv.port_le
    have hspace : str " " = [ch ' '] := rfl
    rw [hspace, List.singleton_append, atoi_space (by decide)]
    refine atoi_printInt (by omega) (by omega) ?_
    rintro b ⟨rfl⟩
    decide
  have hskip : strstr (objectText d r) (str "\"port\"")
      = strstr ([] ++ ch '"' :: (d.host ++ ch '"' :: (str ", " ++ ch '"' :: (str "port" ++ ch '"' ::
          (str ": " ++ (printInt d.port ++ ch '\x7d' :: r)))))) (str "\"port\"") := by
    rw [hkey, objectText]
    refine (strstr_marked_skip (u := [ch '\x7b']) (by decide) (by decide) (by decide)
      (by decide)).trans ?_
    refine (strstr_marked_skip (u := []) (by simp) (by decide) (by decide) (by decide)).trans ?_
    refine (strstr_marked_skip (u := []) (by simp) hv.name_no_quote (by decide)
      hr.name_port).trans ?_
    refine (strstr_marked_skip (u := []) (by simp) (by decide) (by decide) (by decide)).trans ?_
    refine (strstr_marked_skip (u := []) (by simp) (by decide) (by decide) (by decide)).trans ?_
    exact strstr_marked_skip (u := []) (by simp) (by decide) (by decide) (by decide)
  have hcolon : str ": " = ch ':' :: str " " := rfl
  by_cases hhost : d.host = str "port"
  · -- the host is taken for the key, and the colon behind the key is the next one
    refine (bodyPort_of_find (g := str ", \"port\"")
      (s := str " " ++ (printInt d.port ++ ch '\x7d' :: r)) ?_ (by decide)).trans hread
    rw [hskip, hhost]
    exact strstr_marked_hit (by simp) _ _
  · refine (bodyPort_of_find (g := [])
      (s := str " " ++ (printInt d.port ++ ch '\x7d' :: r)) ?_ (by simp)).trans hread
    rw [hskip, hkey, strstr_marked_skip (by simp) hv.host_no_quote (by decide) hhost]
    refine (strstr_marked_skip (u := []) (by simp) (by decide) (by decide) (by decide)).trans ?_
    exact strstr_marked_hit (u := []) (by simp) _ _

/-- **An object is read back as it was written.** -/
theorem objectDatasource_objectText (hr : d.Reloadable) :
    objectDatasource (objectText d r) = d := by
  unfold objectDatasource
  rw [objectText_name hv, objectText_host hv r hr, objectText_port hv r hr]
  rfl

end

/-! ## Moving to the next object -/

/-- Where no brace opens behind the first closing one, the reader goes on behind the object. -/
theorem next_open {x : Bytes} (h : ∀ t ∈ strchr x (ch '\x7d'), ch '\x7b' ∉ t) (r : Bytes) :
    ∃ stop, strchr (x ++ ch '\x7d' :: r) (ch '\x7d') = some stop
      ∧ strchr (stop.drop 1) (ch '\x7b') = strchr r (ch '\x7b') := by
  cases hx : strchr x (ch '\x7d') with
  | none => exact ⟨_, strchr_append (strchr_eq_none.mp hx), rfl⟩
  | some t =>
      obtain ⟨p, t', rfl, rfl, hp⟩ := strchr_some hx
      have hopen : ch '\x7b' ∉ t' ++ [ch '\x7d'] := by
        have := h _ hx
        simp only [List.mem_cons, not_or] at this
        simp only [List.mem_append, List.mem_singleton, not_or]
        exact ⟨this.2, by decide⟩
      refine ⟨ch '\x7d' :: (t' ++ ch '\x7d' :: r), ?_, ?_⟩
      · rw [List.append_assoc]
        exact strchr_append hp
      · rw [List.drop_succ_cons, List.drop_zero]
        have := strchr_skip (s := r) hopen
        rwa [List.append_assoc, List.singleton_append] at this

/-- The condition on the two texts carries over to a text around them without braces. -/
theorem braces_around {a b c n m : Bytes} (ha : ch '\x7d' ∉ a) (hb : ch '\x7d' ∉ b)
    (hc : ch '\x7d' ∉ c) (hb' : ch '\x7b' ∉ b) (hc' : ch '\x7b' ∉ c)
    (h : ∀ t ∈ strchr (n ++ m) (ch '\x7d'), ch '\x7b' ∉ t) :
    ∀ t ∈ strchr (a ++ (n ++ (b ++ (m ++ c)))) (ch '\x7d'), ch '\x7b' ∉ t := by
  intro t ht
  rw [strchr_skip ha] at ht
  cases hn : strchr n (ch '\x7d') with
  | some u =>
      -- the first closing brace stands in the name
      obtain ⟨p, u', rfl, rfl, hp⟩ := strchr_some hn
      have hu := h (ch '\x7d' :: (u' ++ m)) (by rw [List.append_assoc]; exact strchr_append hp)
      have heq : ch '\x7d' :: (u' ++ (b ++ (m ++ c))) = t := by
        rw [List.append_assoc, List.cons_append, strchr_append hp] at ht
        exact Option.some.inj ht
      rw [← heq]
      simp only [List.mem_cons, List.mem_append, not_or] at hu ⊢
      exact ⟨hu.1, hu.2.1, hb', hu.2.2, hc'⟩
  | none =>
      have hn' := strchr_eq_none.mp hn
      rw [strchr_skip hn', strchr_skip hb] at ht
      rw [strchr_skip hn'] at h
      cases hm : strchr m (ch '\x7d') with
      | some u =>
          obtain ⟨p, u', rfl, rfl, hp⟩ := strchr_some hm
          have hu := h _ hm
          have heq : ch '\x7d' :: (u' ++ c) = t := by
            rw [List.append_assoc, List.cons_append, strchr_append hp] at ht
            exact Option.some.inj ht
          rw [← heq]
          simp only [List.mem_cons, List.mem_append, not_or] at hu ⊢
          exact ⟨hu.1, hu.2, hc'⟩
      | none =>
          rw [strchr_skip (strchr_eq_none.mp hm), strchr_eq_none.mpr hc] at ht
          exact absurd ht (by simp)

theorem brace_not_mem_printInt {b : UInt8} (hdigit : isDigit b = false) (hsign : b ≠ ch '-')
    (z : Int) : b ∉ printInt z := by
  intro h
  rcases mem_printInt h with h | h
  · rw [hdigit] at h
    exact absurd h (by simp)
  · exact hsign h

/-- After a reloadable object the reader looks for the next one behind it. -/
theorem objectText_next {d : Datasource} (hr : d.Reloadable) (r : Bytes) :
    ∃ stop, strchr (objectText d r) (ch '\x7d') = some stop
      ∧ strchr (stop.drop 1) (ch '\x7b') = strchr r (ch '\x7b') := by
  have hclose := brace_not_mem_printInt (b := ch '\x7d') (by decide) (by decide) d.port
  have hopen := brace_not_mem_printInt (b := ch '\x7b') (by decide) (by decide) d.port
  have hsplit : objectText d r
      = (str "\x7b\"name\": \"" ++ (d.name ++ (str "\", \"host\": \"" ++ (d.host
        ++ (str "\", \"port\": " ++ printInt d.port))))) ++ ch '\x7d' :: r := by
    have h1 : str "\x7b\"name\": \"" = ch '\x7b' :: ch '"' :: (str "name"
        ++ (ch '"' :: (str ": " ++ [ch '"']))) := rfl
    have h2 : str "\", \"host\": \"" = ch '"' :: (str ", " ++ ch '"' :: (str "host"
        ++ (ch '"' :: (str ": " ++ [ch '"'])))) := rfl
    have h3 : str "\", \"port\": " = ch '"' :: (str ", " ++ ch '"' :: (str "port"
        ++ (ch '"' :: str ": "))) := rfl
    rw [objectText, h1, h2, h3]
    simp only [List.append_assoc, List.cons_append, List.nil_append]
  rw [hsplit]
  refine next_open ?_ r
  refine braces_around (by decide) (by decide) ?_ (by decide) ?_ hr.braces
  · rw [List.mem_append, not_or]
    exact ⟨by decide, hclose⟩
  · rw [List.mem_append, not_or]
    exact ⟨by decide, hopen⟩

/-! ## The loop -/

/-- One round on a reloadable object: it is appended, and the next object is looked for. -/
theorem loadItems_object {d : Datasource} (hv : d.Valid) (hr : d.Reloadable) {items : List Datasource}
    (hroom : items.length < maxDatasources) (fuel : Nat) {u : Bytes} (hu : ch '\x7b' ∉ u)
    (r : Bytes) :
    loadItems (fuel + 1) (u ++ objectText d r) items
      = match strchr r (ch '\x7b') with
        | none => items ++ [d]
        | some arr => loadItems fuel arr (items ++ [d]) := by
  have hhead : strchr (objectText d r) (ch '\x7b') = some (objectText d r) :=
    strchr_append (p := []) (by simp)
  obtain ⟨stop, hstop, hnext⟩ := objectText_next hr r
  rw [loadItems, if_neg (by omega), strchr_skip hu, hhead]
  dsimp only
  rw [objectDatasource_objectText hv r hr,
    if_pos ⟨hv.name_ne, hv.host_ne, by have := hv.port_pos; omega⟩, hstop]
  dsimp only
  generalize strchr (stop.drop 1) (ch '\x7b') = found at hnext ⊢
  subst hnext
  cases strchr r (ch '\x7b') with
  | none => rfl
  | some arr => rfl

/-- **The loop reads the saved objects back**, from any point of the list on. -/
theorem loadItems_saved {tail : Bytes} (htail : ch '\x7b' ∉ tail) :
    ∀ (rest : List Datasource) (d : Datasource) (fuel : Nat) (items : List Datasource) (u : Bytes),
    (∀ e ∈ d :: rest, e.Valid ∧ e.Reloadable) → items.length + (d :: rest).length ≤ maxDatasources →
    rest.length ≤ fuel → ch '\x7b' ∉ u →
    loadItems (fuel + 1) (u ++ objectText d (afterObject tail rest)) items = items ++ d :: rest
  | [], d, fuel, items, u, hall, hroom, _, hu => by
      obtain ⟨hv, hr⟩ := hall d (by simp)
      have hlen : items.length < maxDatasources := by
        rw [List.length_singleton] at hroom
        omega
      have hlast : strchr (afterObject tail []) (ch '\x7b') = none := by
        rw [strchr_eq_none, afterObject, List.mem_append, not_or]
        exact ⟨by decide, htail⟩
      rw [loadItems_object hv hr hlen fuel hu, hlast]
  | e :: rest, d, fuel, items, u, hall, hroom, hfuel, hu => by
      obtain ⟨hv, hr⟩ := hall d (by simp)
      simp only [List.length_cons] at hroom hfuel
      obtain ⟨fuel', rfl⟩ : ∃ k, fuel = k + 1 := ⟨fuel - 1, by omega⟩
      have hnext : strchr (afterObject tail (e :: rest)) (ch '\x7b')
          = some (objectText e (afterObject tail rest)) := by
        rw [afterObject]
        exact strchr_append (by decide)
      rw [loadItems_object hv hr (by omega) _ hu, hnext]
      have ih := loadItems_saved htail rest e fuel' (items ++ [d]) []
        (fun e' he' => hall e' (List.mem_cons_of_mem _ he'))
        (by rw [List.length_append, List.length_singleton, List.length_cons]; omega) (by omega)
        (by simp)
      rw [List.nil_append, List.append_assoc] at ih
      exact ih

theorem length_le_afterObject (tail : Bytes) : ∀ rest : List Datasource,
    rest.length ≤ (afterObject tail rest).length
  | [] => by simp
  | e :: rest => by
      have ih := length_le_afterObject tail rest
      rw [afterObject, objectText, List.length_cons]
      simp only [List.length_append, List.length_cons]
      omega

/-! ## The whole file -/

/-- The file up to the bracket, in pieces. -/
theorem saveDatasources_eq (ds : DatasourceList) :
    saveDatasources ds = ch '\x7b' :: (str "\n  " ++ ch '"' :: (str "default" ++ ch '"' ::
      (str ": " ++ ch '"' :: (ds.defaultName ++ ch '"' :: (str ",\n  " ++ ch '"' ::
      (str "datasources" ++ ch '"' :: (str ": " ++ ch '[' :: (str "\n" ++ (savedItems ds.items
        ++ str "  ]\n\x7d\n"))))))))) := by
  have h1 : str "\x7b\n  \"default\": \"" = ch '\x7b' :: (str "\n  " ++ ch '"' :: (str "default"
      ++ ch '"' :: (str ": " ++ [ch '"']))) := rfl
  have h2 : str "\",\n  \"datasources\": [\n" = ch '"' :: (str ",\n  " ++ ch '"' ::
      (str "datasources" ++ ch '"' :: (str ": " ++ ch '[' :: str "\n"))) := rfl
  rw [saveDatasources, h1, h2]
  simp only [List.append_assoc, List.cons_append, List.nil_append]

/-- The default is a stored name or empty, so it has no quote, no NUL, and fits. -/
theorem defaultName_text {ds : DatasourceList} (hinv : StoreInv ds) :
    ch '"' ∉ ds.defaultName ∧ (0 : UInt8) ∉ ds.defaultName ∧ ds.defaultName.length ≤ 63 := by
  refine hinv.default_of_items
    (P := fun p => ch '"' ∉ p ∧ (0 : UInt8) ∉ p ∧ p.length ≤ 63) (by simp) ?_
  intro d hd
  have hv := hinv.valid d hd
  exact ⟨hv.name_no_quote, hv.name_no_nul, hv.name_length⟩

theorem zero_not_mem_savedItems : ∀ {items : List Datasource}, (∀ d ∈ items, d.Valid) →
    (0 : UInt8) ∉ savedItems items
  | [], _ => by simp [savedItems]
  | [d], h => by
      have hv := h d (by simp)
      have hport := brace_not_mem_printInt (b := 0) (by decide) (by decide) d.port
      simp only [savedItems, savedItem, List.mem_append, not_or]
      exact ⟨⟨⟨⟨⟨⟨⟨by decide, hv.name_no_nul⟩, by decide⟩, hv.host_no_nul⟩, by decide⟩, hport⟩,
        by decide⟩, by decide⟩
  | d :: e :: rest, h => by
      have hv := h d (by simp)
      have hport := brace_not_mem_printInt (b := 0) (by decide) (by decide) d.port
      have ih : (0 : UInt8) ∉ savedItems (e :: rest) :=
        zero_not_mem_savedItems fun d' hd' => h d' (List.mem_cons_of_mem _ hd')
      simp only [savedItems, savedItem, List.mem_append, not_or] at ih ⊢
      exact ⟨⟨⟨⟨⟨⟨⟨⟨by decide, hv.name_no_nul⟩, by decide⟩, hv.host_no_nul⟩, by decide⟩, hport⟩,
        by decide⟩, by decide⟩, ih⟩

theorem cstr_saveDatasources {ds : DatasourceList} (hinv : StoreInv ds) :
    cstr (saveDatasources ds) = saveDatasources ds := by
  refine cstr_eq_self ?_
  simp only [saveDatasources, List.mem_append, not_or]
  exact ⟨⟨⟨⟨by decide, (defaultName_text hinv).2.1⟩, by decide⟩,
    zero_not_mem_savedItems hinv.valid⟩, by decide⟩

/-- The reader finds the bracket of the list, even when the default is called `datasources`. -/
theorem saveDatasources_bracket {ds : DatasourceList} (hinv : StoreInv ds) :
    ∃ key, strstr (saveDatasources ds) (str "\"datasources\"") = some key
      ∧ strchr key (ch '[') = some (ch '[' :: (str "\n" ++ (savedItems ds.items
        ++ str "  ]\n\x7d\n"))) := by
  have hquote := (defaultName_text hinv).1
  have hskip := (strstr_marked_skip (q := ch '"') (u := ch '\x7b' :: str "\n  ") (a := str "default")
    (s := str ": " ++ ch '"' :: (ds.defaultName ++ ch '"' :: (str ",\n  " ++ ch '"' ::
      (str "datasources" ++ ch '"' :: (str ": " ++ ch '[' :: (str "\n" ++ (savedItems ds.items
        ++ str "  ]\n\x7d\n")))))))
    (w := str "datasources") (by decide) (by decide) (by decide) (by decide)).trans
    (strstr_marked_skip (u := []) (by simp) (by decide) (by decide) (by decide))
  rw [saveDatasources_eq]
  by_cases hname : ds.defaultName = str "datasources"
  · rw [hname] at hskip ⊢
    exact ⟨_, hskip.trans (strstr_marked_hit (u := []) (by simp) _ _),
      strchr_append (p := str "\"datasources\",\n  \"datasources\": ") (by decide)⟩
  · have hfind := (hskip.trans (strstr_marked_skip (u := []) (by simp) hquote (by decide)
      hname)).trans (strstr_marked_skip (u := []) (by simp) (by decide) (by decide) (by decide))
    exact ⟨_, hfind.trans (strstr_marked_hit (u := []) (by simp) _ _),
      strchr_append (p := str "\"datasources\": ") (by decide)⟩

/-- **A list of reloadable datasources is read back as it was written.** -/
theorem loadDatasources_saveDatasources {ds : DatasourceList} (hinv : StoreInv ds)
    (hr : ∀ d ∈ ds.items, d.Reloadable) (old : DatasourceList) :
    loadDatasources old (some (saveDatasources ds)) = ds := by
  have hdefault : fileString (saveDatasources ds) (str "\"default\"") maxDsNameLen
      = some ds.defaultName := by
    obtain ⟨hquote, -, hlen⟩ := defaultName_text hinv
    rw [saveDatasources_eq]
    exact fileString_of_find
      (strstr_marked_hit (u := ch '\x7b' :: str "\n  ") (by decide) (str "default") _)
      (by decide : ch '"' ∉ str ": ") hquote (by unfold maxDsNameLen; omega)
  obtain ⟨key, hkey, harr⟩ := saveDatasources_bracket hinv
  have hitems : ∀ arr, arr = ch '[' :: (str "\n" ++ (savedItems ds.items ++ str "  ]\n\x7d\n")) →
      loadItems (arr.length + 1) arr [] = ds.items := by
    rintro arr rfl
    cases hlist : ds.items with
    | nil =>
        have hnone : strchr (ch '[' :: (str "\n" ++ (savedItems [] ++ str "  ]\n\x7d\n")))
            (ch '\x7b') = none := by decide
        rw [loadItems, hnone]
        rfl
    | cons d rest =>
        have htext : ch '[' :: (str "\n" ++ (savedItems (d :: rest) ++ str "  ]\n\x7d\n"))
            = str "[\n    " ++ objectText d (afterObject (str "  ]\n\x7d\n") rest) := by
          rw [savedItems_append]
          rfl
        have hlen := length_le_afterObject (str "  ]\n\x7d\n") rest
        rw [htext]
        refine loadItems_saved (by decide) rest d _ [] _ ?_ ?_ ?_ (by decide)
        · intro e he
          rw [← hlist] at he
          exact ⟨hinv.valid e he, hr e he⟩
        · rw [← hlist]
          simpa using hinv.room
        · rw [List.length_append, objectText, List.length_cons]
          simp only [List.length_append, List.length_cons]
          omega
  unfold loadDatasources
  split
  · rename_i hnone
    exact absurd hnone (by simp)
  · rename_i hnil
    rw [saveDatasources_eq] at hnil
    exact absurd hnil (by simp)
  · rename_i content _ hcontent
    injection hcontent with hcontent
    dsimp only
    rw [← hcontent, cstr_saveDatasources hinv, hdefault, hkey]
    dsimp only
    rw [harr]
    dsimp only
    rw [hitems _ rfl, Option.getD_some]

/--
**Runs that post only reloadable datasources can be restarted.**

In every state such a run reaches, loading the file that `save_datasources` writes
restores the same datasources in the same order and the same default, whatever was in
memory before.
-/
theorem reload_after_run (reqs : List (Env × Bytes))
    (hposted : ∀ r ∈ reqs, ∀ d, postedDatasource (cstr r.2) = some d → d.Reloadable)
    (old : DatasourceList) :
    loadDatasources old (some (saveDatasources (runRequests {} reqs))) = runRequests {} reqs := by
  refine loadDatasources_saveDatasources (storeInv_runRequests reqs storeInv_empty) ?_ old
  intro d hd
  rcases mem_runRequests reqs storeInv_empty d hd with h | ⟨r, hr, h⟩
  · simp at h
  · exact hposted r hr d h

/-- Braces alone do no harm: a datasource called `r{1}` survives a restart. -/
theorem reload_after_run_braces :
    let reqs := [(sampleEnv,
      postRequest (str "\x7b\"name\":\"r\x7b1\x7d\",\"host\":\"h\",\"port\":9000\x7d"))]
    (runRequests {} reqs).items = [⟨str "r\x7b1\x7d", str "h", 9000⟩]
      ∧ loadDatasources {} (some (saveDatasources (runRequests {} reqs))) = runRequests {} reqs := by
  intro reqs
  have hsample : (runRequests {} reqs).items = [⟨str "r\x7b1\x7d", str "h", 9000⟩]
      ∧ postedDatasource (cstr (postRequest
        (str "\x7b\"name\":\"r\x7b1\x7d\",\"host\":\"h\",\"port\":9000\x7d")))
        = some ⟨str "r\x7b1\x7d", str "h", 9000⟩ := by decide +kernel
  obtain ⟨hitems, hposted⟩ := hsample
  refine ⟨hitems, reload_after_run reqs ?_ {}⟩
  intro r hr d hd
  rw [List.mem_singleton] at hr
  subst hr
  rw [hposted] at hd
  injection hd with hd
  subst hd
  refine ⟨by decide, by decide, ?_⟩
  intro t ht
  have hclose : strchr (str "r\x7b1\x7d" ++ str "h") (ch '\x7d') = some (str "\x7dh") := by decide
  rw [hclose] at ht
  injection ht with ht
  rw [← ht]
  decide

/-- A datasource called `host`, posted with its host first, comes back with the host `host`. -/
theorem reload_changes_host :
    let body := str "\x7b\"host\":\"10.0.0.1\",\"name\":\"host\",\"port\":8081\x7d"
    let ds := runRequests {} [(sampleEnv, postRequest body)]
    jsonDatasource body = some ⟨str "host", str "10.0.0.1", 8081⟩
      ∧ ds = ⟨[⟨str "host", str "10.0.0.1", 8081⟩], str "host"⟩
      ∧ loadDatasources {} (some (saveDatasources ds))
        = ⟨[⟨str "host", str "host", 8081⟩], str "host"⟩
      ∧ loadDatasources {} (some (saveDatasources ds)) ≠ ds := by
  decide +kernel

end Svgd.Gate
