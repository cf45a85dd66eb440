import Svgd.Lib.CString

/-!
# Lexical path resolution

A path is a list of segments between slashes. Resolving it walks the segments:
empty ones and `.` stay, `..` leaves the directory entered last, anything else
enters. What a relative path climbs above its start is counted, so that `..`
segments are not lost; above `/` there is nothing to climb to.

`Stays` says that a walk never leaves the directory it started from. It is what
decides whether a path appended to a directory is resolved inside that directory.
-/

namespace Lib

/-- The segments of a path, split at every slash. -/
def segments : Bytes → List Bytes
  | [] => [[]]
  | b :: s =>
      if b = ch '/' then [] :: segments s
      else
        match segments s with
        | [] => [[b]]
        | g :: gs => (b :: g) :: gs

/-- A resolved path: how far above its start it climbs, then the directories entered,
innermost first. -/
structure Loc where
  absolute : Bool
  ups : Nat
  names : List Bytes
deriving DecidableEq, Repr

/-- Walk one segment. -/
def Loc.enter (l : Loc) (seg : Bytes) : Loc :=
  if seg = [] ∨ seg = str "." then l
  else if seg = str ".." then
    match l.names with
    | _ :: ns => { l with names := ns }
    | [] => if l.absolute then l else { l with ups := l.ups + 1 }
  else { l with names := seg :: l.names }

/-- Walk a list of segments. -/
def Loc.walk (l : Loc) (segs : List Bytes) : Loc := segs.foldl Loc.enter l

/-- The place a path names, by its text alone. -/
def resolve (p : Bytes) : Loc := Loc.walk ⟨startsWith p (str "/"), 0, []⟩ (segments p)

/-- `file` is resolved to `dir` or to something below it. -/
def Inside (dir file : Bytes) : Prop :=
  (resolve file).absolute = (resolve dir).absolute ∧ (resolve file).ups = (resolve dir).ups
    ∧ (resolve dir).names <:+ (resolve file).names

instance (dir file : Bytes) : Decidable (Inside dir file) := by
  unfold Inside; infer_instance

/-- A walk that starts `d` directories deep never climbs above its start. -/
def Stays : Nat → List Bytes → Prop
  | _, [] => True
  | d, seg :: rest =>
      if seg = [] ∨ seg = str "." then Stays d rest
      else if seg = str ".." then 0 < d ∧ Stays (d - 1) rest
      else Stays (d + 1) rest

instance Stays.decidable : ∀ (d : Nat) (segs : List Bytes), Decidable (Stays d segs)
  | _, [] => isTrue trivial
  | d, seg :: rest =>
      have : Decidable (Stays d rest) := Stays.decidable d rest
      have : Decidable (Stays (d - 1) rest) := Stays.decidable (d - 1) rest
      have : Decidable (Stays (d + 1) rest) := Stays.decidable (d + 1) rest
      inferInstanceAs (Decidable (if seg = [] ∨ seg = str "." then Stays d rest
        else if seg = str ".." then 0 < d ∧ Stays (d - 1) rest else Stays (d + 1) rest))

/-! ## Segments -/

theorem segments_ne_nil (p : Bytes) : segments p ≠ [] := by
  cases p with
  | nil => simp [segments]
  | cons b s =>
      unfold segments
      split
      · simp
      · split <;> simp

@[simp] theorem segments_slash (s : Bytes) : segments (ch '/' :: s) = [] :: segments s := by
  rw [segments, if_pos rfl]

theorem segments_cons {b : UInt8} (hb : b ≠ ch '/') {s g : Bytes} {gs : List Bytes}
    (hs : segments s = g :: gs) : segments (b :: s) = (b :: g) :: gs := by
  rw [segments, if_neg hb, hs]

/-- A slash is a boundary: the segments on its two sides are independent. -/
theorem segments_append_slash (a b : Bytes) :
    segments (a ++ ch '/' :: b) = segments a ++ segments b := by
  induction a with
  | nil => rw [List.nil_append, segments_slash]; rfl
  | cons x a ih =>
      by_cases hx : x = ch '/'
      · rw [hx, List.cons_append, segments_slash, segments_slash, ih, List.cons_append]
      · cases hs : segments a with
        | nil => exact absurd hs (segments_ne_nil a)
        | cons g gs =>
            rw [hs, List.cons_append] at ih
            rw [List.cons_append, segments_cons hx ih, segments_cons hx hs, List.cons_append]

/-- A text without slashes glues onto the first segment. -/
theorem segments_glue {a : Bytes} (h : ch '/' ∉ a) {b g : Bytes} {gs : List Bytes}
    (hb : segments b = g :: gs) : segments (a ++ b) = (a ++ g) :: gs := by
  induction a with
  | nil => exact hb
  | cons x a ih =>
      have hx : x ≠ ch '/' := fun he => h (he ▸ List.mem_cons_self)
      rw [List.cons_append, segments_cons hx (ih (fun hm => h (List.mem_cons_of_mem _ hm))),
        List.cons_append]

theorem segments_of_no_slash {a : Bytes} (h : ch '/' ∉ a) : segments a = [a] := by
  have := segments_glue h (show segments [] = [[]] from rfl)
  simpa using this

theorem startsWith_slash_append {a : Bytes} (h : a ≠ []) (b : Bytes) :
    startsWith (a ++ b) (str "/") = startsWith a (str "/") := by
  cases a with
  | nil => exact absurd rfl h
  | cons x a => rfl

/-- What follows a slash is walked from where the directory is. -/
theorem resolve_append_slash {dir : Bytes} (h : dir ≠ []) (rest : Bytes) :
    resolve (dir ++ ch '/' :: rest) = (resolve dir).walk (segments rest) := by
  unfold resolve Loc.walk
  rw [segments_append_slash, List.foldl_append, startsWith_slash_append h]

/-! ## Walks -/

/-- A walk that stays keeps everything below its start. -/
theorem walk_of_stays (abs : Bool) (ups : Nat) (base : List Bytes) :
    ∀ {segs : List Bytes} (top : List Bytes), Stays top.length segs →
    ∃ top', Loc.walk ⟨abs, ups, top ++ base⟩ segs = ⟨abs, ups, top' ++ base⟩
  | [], top, _ => ⟨top, rfl⟩
  | seg :: rest, top, h => by
      -- `top` is what the walk has entered above its start
      unfold Stays at h
      unfold Loc.walk
      rw [List.foldl_cons, Loc.enter]
      split at h
      · rename_i hs
        rw [if_pos hs]
        exact walk_of_stays abs ups base top h
      · rename_i hs
        rw [if_neg hs]
        split at h
        · rename_i hup
          rw [if_pos hup]
          cases top with
          | nil => exact absurd h.1 (by simp)
          | cons t top => exact walk_of_stays abs ups base top h.2
        · rename_i hup
          rw [if_neg hup]
          exact walk_of_stays abs ups base (seg :: top) h

/-- A walk that climbs above its start forgets where it started. -/
theorem walk_of_not_stays (n m : Bytes) : ∀ {segs : List Bytes} (top : List Bytes),
    ¬ Stays top.length segs →
    Loc.walk ⟨false, 0, top ++ [n]⟩ segs = Loc.walk ⟨false, 0, top ++ [m]⟩ segs
  | [], _, h => absurd trivial h
  | seg :: rest, top, h => by
      unfold Stays at h
      unfold Loc.walk
      rw [List.foldl_cons, List.foldl_cons, Loc.enter, Loc.enter]
      split at h
      · rename_i hs
        rw [if_pos hs, if_pos hs]
        exact walk_of_not_stays n m top h
      · rename_i hs
        rw [if_neg hs, if_neg hs]
        split at h
        · rename_i hup
          rw [if_pos hup, if_pos hup]
          cases top with
          -- here the walk leaves, and the name it started under is gone
          | nil => rfl
          | cons t top => exact walk_of_not_stays n m top (fun hst => h ⟨by simp, hst⟩)
        · rename_i hup
          rw [if_neg hup, if_neg hup]
          exact walk_of_not_stays n m (seg :: top) h

theorem Inside.refl (dir : Bytes) : Inside dir dir := ⟨rfl, rfl, List.suffix_rfl⟩

/-- **Staying is enough.** A path that never climbs above its start is resolved inside
whatever directory it is appended to. -/
theorem inside_of_stays {dir rest : Bytes} (hdir : dir ≠ [])
    (h : Stays 0 (segments (ch '/' :: rest))) : Inside dir (dir ++ ch '/' :: rest) := by
  have hst : Stays ([] : List Bytes).length (segments rest) := by
    rwa [segments_slash, Stays, if_pos (Or.inl rfl)] at h
  obtain ⟨top, htop⟩ := walk_of_stays (resolve dir).absolute (resolve dir).ups (resolve dir).names
    [] hst
  unfold Inside
  rw [resolve_append_slash hdir]
  have hloc : (resolve dir).walk (segments rest)
      = ⟨(resolve dir).absolute, (resolve dir).ups, top ++ (resolve dir).names⟩ := htop
  rw [hloc]
  exact ⟨rfl, rfl, List.suffix_append _ _⟩

/-- A path of one name. -/
theorem resolve_name {d : Bytes} (hslash : ch '/' ∉ d) (hne : d ≠ []) (hdot : d ≠ str ".")
    (hdots : d ≠ str "..") : resolve d = ⟨false, 0, [d]⟩ := by
  have habs : startsWith d (str "/") = false := by
    cases d with
    | nil => exact absurd rfl hne
    | cons b d =>
        have hb : ch '/' ≠ b := fun he => hslash (he ▸ List.mem_cons_self)
        simp [str, hb]
  unfold resolve
  rw [segments_of_no_slash hslash, habs]
  simp [Loc.walk, Loc.enter, hne, hdot, hdots]

/-- A walk without `..` never climbs. -/
theorem stays_of_no_dots {segs : List Bytes} (h : str ".." ∉ segs) (d : Nat) : Stays d segs := by
  induction segs generalizing d with
  | nil => trivial
  | cons seg rest ih =>
      rw [List.mem_cons, not_or] at h
      unfold Stays
      split
      · exact ih h.2 d
      · rw [if_neg (Ne.symm h.1)]
        exact ih h.2 (d + 1)

/-! ## Paths that climb escape from some directory -/

/-- A directory name made of one repeated letter. -/
def letters (n : Nat) (c : UInt8) : Bytes := List.replicate n c

theorem letters_ok {n : Nat} (hn : 0 < n) {c : UInt8} (hc : c = ch 'x' ∨ c = ch 'y') :
    ch '/' ∉ letters n c ∧ letters n c ≠ [] ∧ letters n c ≠ str "." ∧ letters n c ≠ str ".." := by
  have hmem : ∀ b ∈ letters n c, b = ch 'x' ∨ b = ch 'y' := by
    intro b hb
    rw [List.eq_of_mem_replicate hb]
    exact hc
  have hne : ∀ w : Bytes, ch '.' ∈ w → letters n c ≠ w := by
    intro w hw he
    rw [← he] at hw
    rcases hmem _ hw with h | h <;> exact absurd h (by decide)
  refine ⟨?_, ?_, hne _ (by decide), hne _ (by decide)⟩
  · intro hm
    rcases hmem _ hm with h | h <;> exact absurd h (by decide)
  · intro he
    have := congrArg List.length he
    simp [letters] at this
    omega

theorem resolve_letters {n : Nat} (hn : 0 < n) {c : UInt8} (hc : c = ch 'x' ∨ c = ch 'y') :
    resolve (letters n c) = ⟨false, 0, [letters n c]⟩ := by
  obtain ⟨h1, h2, h3, h4⟩ := letters_ok hn hc
  rw [resolve_name h1 h2 h3 h4]

/-- One walk cannot bottom out in two different names. -/
theorem not_inside_both {n : Nat} (hn : 0 < n) {fx fy : Bytes}
    (hsame : (resolve fx).names = (resolve fy).names)
    (hx : Inside (letters n (ch 'x')) fx) (hy : Inside (letters n (ch 'y')) fy) : False := by
  have sx := hx.2.2
  have sy := hy.2.2
  rw [resolve_letters hn (Or.inl rfl), hsame] at sx
  rw [resolve_letters hn (Or.inr rfl)] at sy
  have heq := (List.suffix_of_suffix_length_le sx sy (by simp)).eq_of_length (by simp)
  have hc : ch 'x' = ch 'y' := by
    have hrep : letters n (ch 'x') = letters n (ch 'y') := by simpa using heq
    have h0 : ch 'x' ∈ letters n (ch 'y') := by
      rw [← hrep]
      exact List.mem_replicate.mpr ⟨by omega, rfl⟩
    exact List.eq_of_mem_replicate h0
  exact absurd hc (by decide)

/-- **Staying is necessary.** A path that climbs above its start is resolved outside some
directory it is appended to, and that directory can have any length. -/
theorem exists_not_inside {rest : Bytes} {n : Nat} (hn : 0 < n) (h : ¬ Stays 0 (segments rest)) :
    ∃ dir, dir ≠ [] ∧ dir.length = n ∧ ¬ Inside dir (dir ++ ch '/' :: rest) := by
  have hwalk : ∀ c, c = ch 'x' ∨ c = ch 'y' → resolve (letters n c ++ ch '/' :: rest)
      = Loc.walk ⟨false, 0, [] ++ [letters n c]⟩ (segments rest) := by
    intro c hc
    rw [resolve_append_slash (letters_ok hn hc).2.1, resolve_letters hn hc]
    rfl
  by_contra hcon
  push Not at hcon
  -- the walk forgets which letter it started under
  refine not_inside_both hn ?_
    (hcon _ (letters_ok hn (Or.inl rfl)).2.1 List.length_replicate)
    (hcon _ (letters_ok hn (Or.inr rfl)).2.1 List.length_replicate)
  rw [hwalk _ (Or.inl rfl), hwalk _ (Or.inr rfl), walk_of_not_stays _ (letters n (ch 'y')) [] h]

end Lib
