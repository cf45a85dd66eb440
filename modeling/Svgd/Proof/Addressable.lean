import Svgd.Lib.Url
import Svgd.Proof.BackendChoice
import Svgd.Proof.LoadInvariant
import Svgd.Proof.Mutations
import Svgd.Proof.Restarts

/-!
# Addressing a datasource by its name

The dashboard writes the name of a datasource into a URL, and the browser encodes what a URL
may not contain. The gate compares the bytes of the URL with the names it stores and decodes
nothing. So a datasource is addressed exactly if its name passes through a URL unchanged: no
byte is encoded, none separates parts of the URL, and the name is no dot segment. It does not
help to encode the name beforehand, whichever bytes are chosen for it.

A name must also be found before any other of the same text. No request stores a name twice,
but a file can hold one twice, and then every start of the gate does (`NamesFit` is all that
survives any file).
-/

namespace Svgd.Gate

open Lib

/-! ## The requests of the dashboard -/

/-- The URL of `deleteDatasource`. -/
def deleteUrl (name : Bytes) : Bytes := str "/_datasources/" ++ name

/-- The URL of `setDefaultDatasource`. -/
def defaultUrl (name : Bytes) : Bytes := str "/_datasources/" ++ (name ++ str "/default")

/-- The URL of `testDatasource`. -/
def testUrl (name : Bytes) : Bytes := str "/_config/metrics?datasource=" ++ name

theorem not_mem_target {c : UInt8} (hpath : Url.pathSet c = true) (hquery : Url.querySet c = true)
    (hc : c ≠ ch '?') (url : Bytes) : c ∉ Url.target url := by
  unfold Url.target
  rw [List.mem_append, not_or]
  constructor
  · intro hm
    have := (Url.mem_pathText c hm).1
    rw [hpath] at this
    exact absurd this (by simp)
  · rcases Url.queryText_cases url with h | ⟨q, h, hq⟩
    · rw [h]
      simp
    · rw [h, List.mem_cons, not_or]
      refine ⟨hc, fun hm => ?_⟩
      have := hq c hm
      rw [hquery] at this
      exact absurd this (by simp)

theorem one_digits : isDigit (ch '1') = true ∧ isDigit (ch '1') = true := by decide

theorem delete_token : ch '?' ∉ str "DELETE" ∧ (0 : UInt8) ∉ str "DELETE" := by decide
theorem put_token : ch '?' ∉ str "PUT" ∧ (0 : UInt8) ∉ str "PUT" := by decide
theorem get_token : ch '?' ∉ str "GET" ∧ (0 : UInt8) ∉ str "GET" := by decide

theorem target_plain (url : Bytes) : ch ' ' ∉ Url.target url ∧ (0 : UInt8) ∉ Url.target url :=
  ⟨not_mem_target (by decide) (by decide) (by decide) url,
    not_mem_target (by decide) (by decide) (by decide) url⟩

/-- The request line the browser sends for a URL. -/
def browserLine (method url : Bytes) (hmethod : ch '?' ∉ method ∧ (0 : UInt8) ∉ method) :
    RequestLine where
  method := method
  target := Url.target url
  major := ch '1'
  minor := ch '1'
  method_token := hmethod
  target_text := target_plain url
  version_digits := one_digits

/-- `DELETE`, with the name in the path. -/
def deleteLine (name : Bytes) : RequestLine := browserLine (str "DELETE") (deleteUrl name) delete_token

/-- `PUT`, with the name in the path. -/
def defaultLine (name : Bytes) : RequestLine := browserLine (str "PUT") (defaultUrl name) put_token

/-- `GET`, with the name in the query. -/
def testLine (name : Bytes) : RequestLine := browserLine (str "GET") (testUrl name) get_token

/-- The dashboard's requests for a datasource resolve to it. The page may encode the bytes of
a set in the name before it builds the URL; `script.js` encodes none. -/
structure Addressable (encode : UInt8 → Bool) (ds : DatasourceList) (d : Datasource) : Prop where
  delete : ∀ rest, ∃ name,
    mutationRequest (cstr ((deleteLine (Url.percentEncode encode d.name)).request rest))
        = some (.delete name)
      ∧ findDatasource ds (name.take 63) = some d
  setDefault : ∀ rest, ∃ name,
    mutationRequest (cstr ((defaultLine (Url.percentEncode encode d.name)).request rest))
        = some (.setDefault name)
      ∧ findDatasource ds (name.take 63) = some d
  query : ∀ rest, ∃ name,
    requestedDatasource (cstr ((testLine (Url.percentEncode encode d.name)).request rest))
        = some name
      ∧ findDatasource ds name = some d

/-- A byte that no part of a URL encodes, and that separates no parts of it. -/
def urlPlain (b : UInt8) : Bool :=
  !(Url.pathSet b || Url.querySet b || (str "/\\&").contains b)

/-- A name that passes through a URL unchanged. -/
structure PlainName (encode : UInt8 → Bool) (name : Bytes) : Prop where
  bytes : ∀ b ∈ name, urlPlain b = true ∧ encode b = false
  segment : Url.isDot name = false ∧ Url.isDotDot name = false

section

variable {encode : UInt8 → Bool} {ds : DatasourceList} {d : Datasource}

/-- An addressed datasource is the one that is removed. -/
theorem Addressable.delete_handled (h : Addressable encode ds d) {env : Env} {rest : Bytes}
    (htoken : hasValidToken env
      (cstr ((deleteLine (Url.percentEncode encode d.name)).request rest)) = true) :
    handleRequest env ds ((deleteLine (Url.percentEncode encode d.name)).request rest)
      = handleDeleteDatasource ds d.name := by
  obtain ⟨name, hreq, hfind⟩ := h.delete rest
  rw [handleRequest_mutation hreq, if_pos htoken, (findDatasource_some hfind).2]
  rfl

/-- It is the one that becomes the default. -/
theorem Addressable.setDefault_handled (h : Addressable encode ds d) {env : Env} {rest : Bytes}
    (htoken : hasValidToken env
      (cstr ((defaultLine (Url.percentEncode encode d.name)).request rest)) = true) :
    handleRequest env ds ((defaultLine (Url.percentEncode encode d.name)).request rest)
      = handleSetDefault ds d.name := by
  obtain ⟨name, hreq, hfind⟩ := h.setDefault rest
  rw [handleRequest_mutation hreq, if_pos htoken, (findDatasource_some hfind).2]
  rfl

/-- And the one whose backend is asked. -/
theorem Addressable.query_backend (h : Addressable encode ds d) (config : Config) (rest : Bytes) :
    targetBackend config ds (cstr ((testLine (Url.percentEncode encode d.name)).request rest))
      = .ok (d.host, d.port) := by
  obtain ⟨name, hreq, hfind⟩ := h.query rest
  rw [targetBackend_eq, hreq]
  dsimp only
  rw [hfind]

end

/-! ## What is extracted -/

/-- The path of a request line is what stands before the question mark of its target. -/
theorem extractPath_line {line : RequestLine} {p q rest : Bytes}
    (hstart : targetStart (line.request rest) = some (line.target ++ (line.versionText ++ rest)))
    (htarget : line.target = p ++ q) (hp : ch '?' ∉ p) (hq : q = [] ∨ ∃ q', q = ch '?' :: q') :
    extractPath (line.request rest) = some p := by
  have hversion : line.versionText ++ rest
      = str " HTTP/" ++ (line.major :: ch '.' :: line.minor :: str "\r\n" ++ rest) := by
    simp [RequestLine.versionText]
  have hend : strstr (line.target ++ (line.versionText ++ rest)) (str " HTTP/")
      = some (line.versionText ++ rest) := by
    have hpat : str " HTTP/" = ch ' ' :: str "HTTP/" := rfl
    rw [hpat, strstr_skip_head line.target_text.1, ← hpat, hversion]
    exact strstr_head (startsWith_append _ _)
  unfold extractPath
  rw [hstart]
  dsimp only
  rw [hend]
  dsimp only
  generalize line.versionText ++ rest = stop
  rw [htarget]
  rcases hq with rfl | ⟨q', rfl⟩
  · -- a question mark can only stand behind the version
    have hnone : queryStart (p ++ [] ++ stop) stop = none := by
      unfold queryStart
      rw [List.append_nil, strchr_skip hp]
      cases hmark : strchr stop (ch '?') with
      | none => rfl
      | some t =>
          obtain ⟨u, t', hstop, -, -⟩ := strchr_some hmark
          dsimp only
          rw [if_neg (by rw [hstop, List.length_append]; omega)]
    rw [hnone, Option.getD_none, List.append_nil, upTo_append]
  · have hsome : queryStart (p ++ ch '?' :: q' ++ stop) stop = some (ch '?' :: (q' ++ stop)) := by
      unfold queryStart
      rw [List.append_assoc, List.cons_append, strchr_append hp]
      dsimp only
      rw [if_pos (by simp only [List.length_cons, List.length_append]; omega)]
    rw [hsome, Option.getD_some, List.append_assoc, List.cons_append, upTo_append]

/-- What `extract_path` makes of a request for a URL. -/
theorem extractPath_browserLine {method url rest : Bytes} {hmethod}
    (hstart : ∀ t, targetStart (method ++ ch ' ' :: t) = some t) :
    extractPath (cstr ((browserLine method url hmethod).request rest)) = some (Url.pathText url) := by
  rw [cstr_request]
  refine extractPath_line (hstart _) rfl ?_ ?_
  · intro hm
    exact absurd (Url.mem_pathText _ hm).1 (by decide)
  · rcases Url.queryText_cases url with h | ⟨q, h, -⟩
    · exact Or.inl h
    · exact Or.inr ⟨_, h⟩

/-- The name in a URL has no slash. -/
theorem mem_urlName {path : Bytes} {b : UInt8} (h : b ∈ urlName path) : b ∈ path ∧ b ≠ ch '/' := by
  unfold urlName at h
  rw [untilOr_strchr] at h
  refine ⟨List.mem_of_mem_drop ((List.takeWhile_sublist _).subset h), ?_⟩
  simpa using List.mem_takeWhile_imp h

/-- What a request to delete a URL asks for. -/
theorem mutationRequest_delete {url rest : Bytes} {hmethod} :
    mutationRequest (cstr ((browserLine (str "DELETE") url hmethod).request rest))
      = if startsWith (Url.pathText url) (str "/_datasources/") then
          some (.delete (urlName (Url.pathText url))) else none := by
  have hbuffer : startsWith (cstr ((browserLine (str "DELETE") url hmethod).request rest))
      (str "DELETE ") = true := by
    rw [cstr_request]
    rfl
  have hpost : startsWith (cstr ((browserLine (str "DELETE") url hmethod).request rest))
      (str "POST ") = false := by
    rw [cstr_request]
    rfl
  unfold mutationRequest
  rw [extractPath_browserLine fun _ => rfl]
  dsimp only
  by_cases hroot : Url.pathText url = str "/_datasources"
  · rw [if_pos hroot, hpost, hroot]
    rfl
  · rw [if_neg hroot, hbuffer]
    rfl

/-- What a request to put something to a URL asks for. -/
theorem mutationRequest_put {url rest : Bytes} {hmethod} {name : Bytes} (hslash : ch '/' ∉ name)
    (hpath : Url.pathText url = defaultUrl name) :
    mutationRequest (cstr ((browserLine (str "PUT") url hmethod).request rest))
      = some (.setDefault name) := by
  have hput : startsWith (cstr ((browserLine (str "PUT") url hmethod).request rest))
      (str "PUT ") = true := by
    rw [cstr_request]
    rfl
  have hdelete : startsWith (cstr ((browserLine (str "PUT") url hmethod).request rest))
      (str "DELETE ") = false := by
    rw [cstr_request]
    rfl
  have hunder : startsWith (defaultUrl name) (str "/_datasources/") = true := startsWith_append _ _
  have hroot : defaultUrl name ≠ str "/_datasources" := by
    intro he
    have hlen := congrArg List.length he
    have h1 : (str "/_datasources/").length = 14 := rfl
    have h2 : (str "/_datasources").length = 13 := rfl
    rw [defaultUrl, List.length_append, h1, h2] at hlen
    omega
  have hdrop : (defaultUrl name).drop 14 = name ++ str "/default" := rfl
  have hrest : strchr (name ++ str "/default") (ch '/') = some (str "/default") :=
    strchr_append hslash
  have hname : urlName (defaultUrl name) = name := by
    unfold urlName
    rw [hdrop, hrest, untilOr, upTo_append]
  unfold mutationRequest
  rw [extractPath_browserLine fun _ => rfl, hpath]
  dsimp only
  rw [if_neg hroot, if_pos hunder, hdelete, hdrop, hrest, hname, if_neg (by simp),
    if_pos ⟨rfl, hput⟩]

/-! ## Plain names -/

theorem urlPlain_iff {b : UInt8} : urlPlain b = true ↔
    Url.pathSet b = false ∧ Url.querySet b = false ∧ b ≠ ch '/' ∧ b ≠ ch '\\' ∧ b ≠ ch '&' := by
  have hsep : str "/\\&" = [ch '/', ch '\\', ch '&'] := rfl
  unfold urlPlain
  rw [hsep]
  simp [and_assoc]

/-- The segments of the dashboard's URLs are plain, if the name is. -/
theorem plain_segments {name : Bytes} (hname : ∀ b ∈ name, urlPlain b = true) :
    ∀ seg ∈ [str "_datasources", name, str "default"],
      ∀ b ∈ seg, Url.pathSet b = false ∧ Url.isSlash b = false := by
  have hplain : ∀ seg : Bytes, (∀ b ∈ seg, urlPlain b = true) →
      ∀ b ∈ seg, Url.pathSet b = false ∧ Url.isSlash b = false := by
    intro seg h b hb
    obtain ⟨hpath, -, hslash, hback, -⟩ := urlPlain_iff.mp (h b hb)
    exact ⟨hpath, by simp [Url.isSlash, hslash, hback]⟩
  intro seg hseg
  rw [List.mem_cons, List.mem_cons, List.mem_singleton] at hseg
  rcases hseg with rfl | rfl | rfl
  · exact hplain _ (List.all_eq_true.mp (by decide : (str "_datasources").all urlPlain = true))
  · exact hplain _ hname
  · exact hplain _ (List.all_eq_true.mp (by decide : (str "default").all urlPlain = true))

/-- A name that is a dot segment takes away a segment, or itself. -/
theorem resolve_name (name : Bytes) : Url.resolve [] [str "_datasources", name]
    = if Url.isDotDot name then [[]] else if Url.isDot name then [str "_datasources", []]
      else [str "_datasources", name] := rfl

/-- The path of a plain name, which may still be a dot segment. -/
theorem pathText_deleteUrl {name : Bytes} (hname : ∀ b ∈ name, urlPlain b = true) :
    Url.pathText (deleteUrl name)
      = (Url.resolve [] [str "_datasources", name]).flatMap (ch '/' :: ·) := by
  have hurl : deleteUrl name = [str "_datasources", name].flatMap (ch '/' :: ·) := by
    simp [deleteUrl, str]
  rw [hurl, Url.pathText_join (by simp)]
  intro seg hseg
  exact plain_segments hname seg (by simp at hseg ⊢; tauto)

theorem pathText_defaultUrl {name : Bytes} (hname : ∀ b ∈ name, urlPlain b = true)
    (hdot : Url.isDot name = false ∧ Url.isDotDot name = false) :
    Url.pathText (defaultUrl name) = defaultUrl name := by
  have hurl : defaultUrl name = [str "_datasources", name, str "default"].flatMap (ch '/' :: ·) := by
    simp [defaultUrl, str]
  rw [hurl, Url.pathText_join (by simp) (plain_segments hname), Url.resolve_plain, List.nil_append]
  intro seg hseg
  rw [List.mem_cons, List.mem_cons, List.mem_singleton] at hseg
  rcases hseg with rfl | rfl | rfl
  · decide
  · exact hdot
  · decide

/-- The name that is found in the query of a URL. -/
theorem requestedDatasource_test {name : Bytes} (hname : ∀ b ∈ name, Url.pathSet b = false)
    (rest : Bytes) : requestedDatasource (cstr ((testLine name).request rest))
      = some ((Url.percentEncode Url.querySet name).takeWhile (· ≠ ch '&')) := by
  have hkey : Url.percentEncode Url.querySet (str "datasource=") = str "datasource=" := by decide
  have hpath : ∀ b ∈ str "/_config/metrics", Url.pathSet b = false := by
    have hall : (str "/_config/metrics").all (fun b => !Url.pathSet b) = true := by decide
    intro b hb
    simpa using List.all_eq_true.mp hall b hb
  have hquery : ∀ b ∈ str "datasource=" ++ name, Url.pathSet b = false := by
    have hall : (str "datasource=").all (fun b => !Url.pathSet b) = true := by decide
    intro b hb
    rcases List.mem_append.mp hb with hb | hb
    · simpa using List.all_eq_true.mp hall b hb
    · exact hname b hb
  obtain ⟨htext, hsent⟩ := Url.target_query hpath hquery
  have hurl : testUrl name = str "/_config/metrics" ++ ch '?' :: (str "datasource=" ++ name) := by
    have hfixed : str "/_config/metrics?datasource="
        = str "/_config/metrics" ++ ch '?' :: str "datasource=" := by decide
    rw [testUrl, hfixed, List.append_assoc, List.cons_append]
  have htarget : (testLine name).target
      = str "/_config/metrics" ++ ch '?' :: (str "datasource=" ++ Url.percentEncode Url.querySet name) := by
    show Url.target (testUrl name) = _
    rw [Url.target, hurl, htext, hsent, Url.percentEncode_append, hkey]
    rfl
  rw [cstr_request]
  have hmark : strchr (testLine name).target (ch '?')
      = some (ch '?' :: (str "datasource=" ++ Url.percentEncode Url.querySet name)) := by
    rw [htarget]
    exact strchr_append (by decide)
  have hfind : strstr (ch '?' :: (str "datasource=" ++ Url.percentEncode Url.querySet name))
      (str "datasource=") = some (str "datasource=" ++ Url.percentEncode Url.querySet name) := by
    have hno : startsWith (ch '?' :: (str "datasource=" ++ Url.percentEncode Url.querySet name))
        (str "datasource=") = false := rfl
    rw [strstr, if_neg (by rw [hno]; decide)]
    exact strstr_head (startsWith_append _ _)
  exact requested_of_found hmark hfind _

/-! ## Both directions -/

section

variable {encode : UInt8 → Bool} {ds : DatasourceList} {d : Datasource}

/-- The bytes of a code are plain. -/
theorem urlPlain_percentEncode {name : Bytes} (h : ∀ b ∈ name, urlPlain b = true) :
    ∀ b ∈ Url.percentEncode encode name, urlPlain b = true :=
  Url.forall_percentEncode (fun b hb _ => h b hb) (by decide) (by decide)

/-- Only a name that passes through a URL unchanged is addressed. -/
theorem Addressable.plainName (hne : d.name ≠ []) (h : Addressable encode ds d) :
    PlainName encode d.name := by
  obtain ⟨m, hdelete, hfind⟩ := h.delete []
  have hm : d.name = m.take 63 := (findDatasource_some hfind).2
  rw [deleteLine, mutationRequest_delete] at hdelete
  -- the name was found in the path, so it has only bytes that a path can have
  have hinpath : ∀ b ∈ d.name, Url.pathSet b = false ∧ b ≠ ch '\\' ∧ b ≠ ch '/' := by
    intro b hb
    split at hdelete
    · obtain rfl := Mutation.delete.inj (Option.some.inj hdelete)
      obtain ⟨hpath, hslash⟩ := mem_urlName (List.mem_of_mem_take (hm ▸ hb))
      exact ⟨(Url.mem_pathText b hpath).1, (Url.mem_pathText b hpath).2, hslash⟩
    · exact absurd hdelete (by simp)
  -- and in the query, so it has only bytes that a query can have
  obtain ⟨m', hquery, hfind'⟩ := h.query []
  have hcode : ∀ b ∈ Url.percentEncode encode d.name, Url.pathSet b = false :=
    Url.forall_percentEncode (fun b hb _ => (hinpath b hb).1) (by decide) (by decide)
  rw [requestedDatasource_test hcode] at hquery
  obtain rfl := Option.some.inj hquery
  have hname := (findDatasource_some hfind').2
  have hplain : ∀ b ∈ d.name, urlPlain b = true := by
    intro b hb
    obtain ⟨hpath, hback, hslash⟩ := hinpath b hb
    rw [hname] at hb
    have hamp : b ≠ ch '&' := by simpa using List.mem_takeWhile_imp hb
    have hset := Url.forall_percentEncode (P := fun c => Url.querySet c = false) (fun _ _ h => h)
      (by decide) (by decide) b ((List.takeWhile_sublist _).subset hb)
    exact urlPlain_iff.mpr ⟨hpath, hset, hslash, hback, hamp⟩
  have hcodeplain : ∀ b ∈ Url.percentEncode encode d.name, urlPlain b = true :=
    urlPlain_percentEncode hplain
  have hself : Url.percentEncode encode d.name = d.name := by
    rw [Url.percentEncode_eq_self fun b hb => (urlPlain_iff.mp (hcodeplain b hb)).2.1,
      List.takeWhile_eq_self_iff.mpr] at hname
    · exact hname.symm
    · intro b hb
      simpa using (urlPlain_iff.mp (hcodeplain b hb)).2.2.2.2
  refine ⟨fun b hb => ⟨hplain b hb, Url.percentEncode_eq_self_iff.mp hself b hb⟩, ?_⟩
  -- a dot segment does not reach the gate
  rw [hself, pathText_deleteUrl hplain] at hdelete
  rw [resolve_name] at hdelete
  cases hdotdot : Url.isDotDot d.name with
  | true =>
      rw [hdotdot] at hdelete
      have hnone : (none : Option Mutation) = some (.delete m) := hdelete
      exact absurd hnone (by simp)
  | false =>
      refine ⟨?_, rfl⟩
      rw [Bool.eq_false_iff]
      intro hdot
      rw [hdotdot, hdot] at hdelete
      -- the name that is found is empty
      have hempty : m = [] := by
        have hfound : some (Mutation.delete []) = some (Mutation.delete m) := hdelete
        exact (Mutation.delete.inj (Option.some.inj hfound)).symm
      rw [hempty] at hm
      exact hne hm

/-- And such a name is. -/
theorem PlainName.addressable (hlen : d.name.length ≤ 63) (hfind : findDatasource ds d.name = some d)
    (h : PlainName encode d.name) : Addressable encode ds d := by
  have hplain : ∀ b ∈ d.name, urlPlain b = true := fun b hb => (h.bytes b hb).1
  have hself : Url.percentEncode encode d.name = d.name :=
    Url.percentEncode_eq_self fun b hb => (h.bytes b hb).2
  have htake : d.name.take 63 = d.name := List.take_of_length_le hlen
  have hslash : ch '/' ∉ d.name := fun hm => (urlPlain_iff.mp (hplain _ hm)).2.2.1 rfl
  constructor
  · intro rest
    have hpath : Url.pathText (deleteUrl d.name) = deleteUrl d.name := by
      rw [pathText_deleteUrl hplain, Url.resolve_plain]
      · simp [deleteUrl, str]
      · intro seg hseg
        rw [List.mem_cons, List.mem_singleton] at hseg
        rcases hseg with rfl | rfl
        · decide
        · exact h.segment
    have hunder : startsWith (deleteUrl d.name) (str "/_datasources/") = true := startsWith_append _ _
    have hname : urlName (deleteUrl d.name) = d.name := by
      have hdrop : (deleteUrl d.name).drop 14 = d.name := rfl
      unfold urlName
      rw [hdrop, strchr_eq_none.mpr hslash, untilOr]
    refine ⟨d.name, ?_, by rw [htake, hfind]⟩
    rw [hself, deleteLine, mutationRequest_delete, hpath, if_pos hunder, hname]
  · intro rest
    refine ⟨d.name, ?_, by rw [htake, hfind]⟩
    rw [hself]
    exact mutationRequest_put hslash (pathText_defaultUrl hplain h.segment)
  · intro rest
    refine ⟨d.name, ?_, hfind⟩
    rw [hself, requestedDatasource_test fun b hb => (urlPlain_iff.mp (hplain b hb)).1,
      Url.percentEncode_eq_self fun b hb => (urlPlain_iff.mp (hplain b hb)).2.1,
      List.takeWhile_eq_self_iff.mpr]
    intro b hb
    simpa using (urlPlain_iff.mp (hplain b hb)).2.2.2.2

end

/-! ## Stored names -/

/-- No datasource in front of `d` has its name. -/
def DatasourceList.FirstNamed (ds : DatasourceList) (d : Datasource) : Prop :=
  ∃ front back, ds.items = front ++ d :: back ∧ ∀ e ∈ front, e.name ≠ d.name

theorem firstNamed_of_find {ds : DatasourceList} {d : Datasource} {name : Bytes}
    (h : findDatasource ds name = some d) : ds.FirstNamed d := by
  obtain ⟨hname, front, back, hitems, hfront⟩ := List.find?_eq_some_iff_append.mp h
  refine ⟨front, back, hitems, fun e he heq => ?_⟩
  have hother := hfront e he
  rw [heq, hname] at hother
  exact absurd hother (by simp)

theorem DatasourceList.FirstNamed.find {ds : DatasourceList} {d : Datasource} (h : ds.FirstNamed d) :
    findDatasource ds d.name = some d := by
  obtain ⟨front, back, hitems, hfront⟩ := h
  refine List.find?_eq_some_iff_append.mpr ⟨by simp, front, back, hitems, fun e he => ?_⟩
  simpa using hfront e he

/-- Stored names are not empty and fit their field. -/
def NamesFit (ds : DatasourceList) : Prop := ∀ d ∈ ds.items, d.name ≠ [] ∧ d.name.length ≤ 63

theorem StoreInv.namesFit {ds : DatasourceList} (h : StoreInv ds) : NamesFit ds :=
  fun d hd => ⟨(h.valid d hd).name_ne, (h.valid d hd).name_length⟩

theorem namesFit_addDatasource {ds ds' : DatasourceList} {name host : Bytes} {port : Int}
    (h : NamesFit ds) (hne : name ≠ []) (hadd : addDatasource ds name host port = .added ds') :
    NamesFit ds' := by
  intro d hd
  rw [(addDatasource_added hadd).2.2.2.2.1, List.mem_append, List.mem_singleton] at hd
  rcases hd with hd | rfl
  · exact h d hd
  · refine ⟨?_, List.length_take_le 63 name⟩
    simpa using hne

/-- Whatever the file holds. -/
theorem namesFit_loadDatasources (file : Option Bytes) : NamesFit (loadDatasources {} file) := by
  cases file with
  | none => exact fun d hd => absurd hd List.not_mem_nil
  | some content =>
      intro d hd
      rw [loadDatasources_eq] at hd
      obtain ⟨n, -, hwritten⟩ := mem_fileEntries.mp hd
      obtain ⟨s, hreads⟩ := hwritten.reads
      exact ⟨hreads.name_fits.1, Nat.le_of_lt_succ hreads.name_fits.2⟩

theorem namesFit_outcome {ds : DatasourceList} (h : NamesFit ds) (a : GateAction) :
    NamesFit (a.outcome ds).datasources := by
  cases a with
  | request env received =>
      rcases handleRequest_cases env ds received with hsame | ⟨d, -, hne, -, hadd⟩ | ⟨name, hrem⟩ |
        ⟨name, hset⟩
      · exact hsame.symm ▸ h
      · exact namesFit_addDatasource h hne hadd
      · intro d hd
        have hd : d ∈ (handleRequest env ds received).datasources.items := hd
        rw [(removeDatasource_some hrem).2.1] at hd
        exact h d (List.mem_of_mem_eraseP hd)
      · intro d hd
        have hd : d ∈ (handleRequest env ds received).datasources.items := hd
        rw [(setDefault_some hset).2] at hd
        exact h d hd
  | start args =>
      show NamesFit (startUp (commandLine args) ds).datasources
      unfold startUp
      split
      · split
        · rename_i ds' hadd
          exact namesFit_addDatasource h (by decide) hadd
        · exact h
      · exact h

/-- **Names fit in every state a gate reaches**, over whatever file it is started. -/
theorem namesFit_runGate (es : List GateEvent) : ∀ {m : Memory DatasourceList Bytes},
    NamesFit m.state → NamesFit (runGate m es).state := by
  induction es with
  | nil => exact fun h => h
  | cons e es ih =>
      intro m h
      refine ih (m := gateProcess.act (gateProcess.before m e.happening) e.happening.action) ?_
      refine namesFit_outcome ?_ e.happening.action
      cases e with
      | request env received => exact h
      | restart args => exact namesFit_loadDatasources m.file

/-- The list of a gate that was started over a file, behind a run with restarts. -/
def reachedList (file : Option Bytes) (args : List Bytes) (es : List GateEvent) : DatasourceList :=
  (runGate ⟨{}, file⟩ (.restart args :: es)).state

/-- A run over no file whose posts and command lines can be read back stores no name twice. -/
theorem carried_reachedList {args : List Bytes} {es : List GateEvent}
    (hok : ∀ e ∈ GateEvent.restart args :: es, e.happening.action.Harmless) :
    Carried (reachedList none args es) := by
  have hfirst := firstStart_agrees (hok _ List.mem_cons_self)
  refine (Snapshots.Agrees.run gateProcess_keeps (es.map GateEvent.happening) hfirst ?_).1.inv
  intro h hh
  obtain ⟨e, he, rfl⟩ := List.mem_map.mp hh
  exact hok e (List.mem_cons_of_mem _ he)

theorem Carried.firstNamed {ds : DatasourceList} (h : Carried ds) {d : Datasource}
    (hd : d ∈ ds.items) : ds.FirstNamed d := by
  obtain ⟨e, he⟩ := Option.isSome_iff_exists.mp (findDatasource_isSome.mpr ⟨d, hd, rfl⟩)
  obtain ⟨hmem, hname⟩ := findDatasource_some he
  obtain rfl := List.inj_on_of_nodup_map h.inv.distinct hmem hd hname
  exact firstNamed_of_find he

/--
**Which datasources the dashboard can address.**

A gate is started over any file and restarted any number of times, with any command lines and
any requests in between. The three requests for a stored datasource resolve to it exactly if
its name is plain, whichever bytes the page encodes itself, and no datasource in front of it
has its name. The latter always holds if the gate was first started without a file, and what
was posted and named on the command lines can be read back.
-/
theorem addressable_iff (encode : UInt8 → Bool) (file : Option Bytes) (args : List Bytes)
    (es : List GateEvent) (d : Datasource) (hd : d ∈ (reachedList file args es).items) :
    (Addressable encode (reachedList file args es) d
        ↔ PlainName encode d.name ∧ (reachedList file args es).FirstNamed d)
      ∧ (file = none → (∀ e ∈ GateEvent.restart args :: es, e.happening.action.Harmless) →
        (reachedList file args es).FirstNamed d) := by
  obtain ⟨hne, hlen⟩ := namesFit_runGate (.restart args :: es) (m := ⟨{}, file⟩)
    storeInv_empty.namesFit d hd
  refine ⟨⟨fun h => ⟨h.plainName hne, ?_⟩, fun h => h.1.addressable hlen h.2.find⟩, ?_⟩
  · obtain ⟨name, -, hfind⟩ := h.query []
    exact firstNamed_of_find hfind
  · rintro rfl hok
    exact (carried_reachedList hok).firstNamed hd

/-- A name of letters and digits is addressed, also behind a restart. -/
theorem addressable_b1 :
    Addressable (fun _ => false) (reachedList none [] [.request sampleEnv samplePost, .restart []])
      ⟨str "b1", str "10.0.0.1", 9000⟩ := by
  have hreached : reachedList none [] [.request sampleEnv samplePost, .restart []]
      = ⟨[⟨str "default", str "127.0.0.1", 8081⟩, ⟨str "b1", str "10.0.0.1", 9000⟩],
        str "default"⟩ := by decide +kernel
  have hbytes : (str "b1").all urlPlain = true := by decide
  refine ((addressable_iff (fun _ => false) none [] [.request sampleEnv samplePost, .restart []]
    _ ?_).1).mpr ⟨⟨fun b hb => ⟨List.all_eq_true.mp hbytes b hb, rfl⟩, by decide⟩, ?_⟩
  · rw [hreached]
    simp
  · rw [hreached]
    exact ⟨[_], [], rfl, List.forall_mem_singleton.mpr (by decide)⟩

/-- A `POST` of a name with a space. -/
def spacePost : Bytes :=
  postRequest (str "\x7b\"name\":\"my server\",\"host\":\"10.0.0.1\",\"port\":9000\x7d")

/-- A name with a space is stored, but the gate looks for it as the URL has it. -/
theorem not_addressable_space :
    let ds := reachedList none [] [.request sampleEnv spacePost]
    let d : Datasource := ⟨str "my server", str "10.0.0.1", 9000⟩
    d ∈ ds.items
      ∧ (deleteLine d.name).target = str "/_datasources/my%20server"
      ∧ (testLine d.name).target = str "/_config/metrics?datasource=my%20server"
      ∧ findDatasource ds (str "my%20server") = none
      ∧ ¬Addressable (fun _ => false) ds d := by
  intro ds d
  have hds : ds = ⟨[⟨str "default", str "127.0.0.1", 8081⟩, d], str "default"⟩ := by decide +kernel
  have hnone : findDatasource ds (str "my%20server") = none := by
    rw [hds]
    decide
  have hstored : d ∈ ds.items := by
    rw [hds]
    simp
  refine ⟨hstored, by decide +kernel, by decide +kernel, hnone, fun h => ?_⟩
  obtain ⟨name, hreq, hfind⟩ := h.delete []
  have hdelete : mutationRequest (cstr ((deleteLine (Url.percentEncode (fun _ => false) d.name)).request []))
      = some (.delete (str "my%20server")) := by decide +kernel
  rw [hdelete] at hreq
  obtain rfl := Mutation.delete.inj (Option.some.inj hreq)
  exact absurd (hnone.symm.trans hfind) (by simp)

end Svgd.Gate
