import Svgd.Lib.Js

/-!
# Well-formed XML, character by character

A reader for XML documents of elements, attributes, character data and references. It keeps
the names of the elements that are open, and the attributes of the tag it is in, so it accepts
exactly the documents whose tags are properly nested and whose attributes are distinct and
quoted, with legal characters and references throughout. It has no comments, CDATA sections,
processing instructions or document types.

A generated document is a list of pieces: markup, plain texts such as numbers, and strings
that are meant as character data or as part of an attribute value. It is sound if it is well
formed and the reader is in the intended place throughout each of these strings. `walk` reads
the pieces without looking at the strings, and `sound_iff` says that the rest is a condition
on each string by itself.
-/

namespace Lib.Xml

open Lib.Js

/-! ## Characters and references -/

/-- A character of a document. -/
def isXmlChar (c : Char) : Bool :=
  c.toNat == 9 || c.toNat == 10 || c.toNat == 13
    || (32 ≤ c.toNat && c.toNat != 0xFFFE && c.toNat != 0xFFFF)

/-- White space. -/
def isSpace (c : Char) : Bool := c.toNat == 32 || c.toNat == 9 || c.toNat == 10 || c.toNat == 13

/-- The ranges of characters, other than ASCII letters, that may start a name. -/
def nameStartRanges : List (Nat × Nat) :=
  [(0xC0, 0xD6), (0xD8, 0xF6), (0xF8, 0x2FF), (0x370, 0x37D), (0x37F, 0x1FFF), (0x200C, 0x200D),
    (0x2070, 0x218F), (0x2C00, 0x2FEF), (0x3001, 0xD7FF), (0xF900, 0xFDCF), (0xFDF0, 0xFFFD),
    (0x10000, 0xEFFFF)]

def inRanges (ranges : List (Nat × Nat)) (c : Char) : Bool :=
  ranges.any fun r => r.1 ≤ c.toNat && c.toNat ≤ r.2

def isNameStart (c : Char) : Bool :=
  c.isAlpha || c == '_' || c == ':' || inRanges nameStartRanges c

def isNameChar (c : Char) : Bool :=
  isNameStart c || c.isDigit || c == '-' || c == '.'
    || inRanges [(0xB7, 0xB7), (0x300, 0x36F), (0x203F, 0x2040)] c

/-- The value of a digit, in bases up to sixteen. -/
def digitValue (c : Char) : Option Nat :=
  if c.isDigit then some (c.toNat - 48)
  else if 97 ≤ c.toNat ∧ c.toNat ≤ 102 then some (c.toNat - 87)
  else if 65 ≤ c.toNat ∧ c.toNat ≤ 70 then some (c.toNat - 55)
  else none

/-- A number in a base; `none` unless it is one. -/
def number (base : Nat) (s : Text) : Option Nat :=
  if s = [] then none
  else s.foldlM (fun n c => match digitValue c with
    | some d => if d < base then some (n * base + d) else none
    | none => none) 0

/-- The number of a character that may stand in a document. -/
def isCharNumber (n : Option Nat) : Bool :=
  match n with
  | some n => n.isValidChar && isXmlChar (Char.ofNat n)
  | none => false

/-- What may stand between `&` and `;`: one of the five predefined names, or a character. -/
def isReference (s : Text) : Bool :=
  [txt "amp", txt "lt", txt "gt", txt "apos", txt "quot"].contains s
    || match s with
      | '#' :: 'x' :: digits => isCharNumber (number 16 digits)
      | '#' :: digits => isCharNumber (number 10 digits)
      | _ => false

/-- A character that occurs in a reference. -/
def isRefChar (c : Char) : Bool := c.isAlpha || c.isDigit || c == '#'

/-! ## Character data -/

/-- One character of data, inside a reference or not. -/
def dataStep : Option Text → Char → Option (Option Text)
  | none, c => if c = '&' then some (some []) else if isXmlChar c then some none else none
  | some name, c =>
      if c = ';' then if isReference name then some none else none
      else if isRefChar c then some (some (name ++ [c]))
      else none

/-- One character of an attribute value in double quotes. -/
def valueStep (ref : Option Text) (c : Char) : Option (Option Text) :=
  if c = '"' ∨ c = '<' then none else dataStep ref c

/-- One character of the content of an element. The number of closing brackets just read is
kept, since two of them must not be followed by `>`. -/
def textStep (st : Option Text × Nat) (c : Char) : Option (Option Text × Nat) :=
  if c = '<' then none
  else if c = '>' ∧ st.2 = 2 then none
  else (dataStep st.1 c).map fun ref => (ref, if c = ']' then min 2 (st.2 + 1) else 0)

/-- A string that is character data. -/
def isData (s : Text) : Bool :=
  match s.foldlM textStep (none, 0) with
  | some (none, _) => true
  | _ => false

/-- A string that is a part of an attribute value in double quotes. -/
def isValue (s : Text) : Bool :=
  match s.foldlM valueStep none with
  | some none => true
  | _ => false

/-! ## The reader -/

/-- A start tag up to some place: the elements it is in, its name, and its attributes so far. -/
structure Tag where
  opened : List Text
  name : Text
  attrs : List Text
deriving DecidableEq

/-- Where in a document the reader is. -/
inductive State where
  | prolog
  | content (opened : List Text) (data : Option Text × Nat)
  /-- Behind a `<`. -/
  | opening (opened : List Text)
  | tagName (opened : List Text) (name : Text)
  /-- Between the attributes. -/
  | tag (t : Tag) (spaced : Bool)
  | attrName (t : Tag) (name : Text)
  /-- Behind the name of an attribute; the `=` has been seen or not. -/
  | equals (t : Tag) (name : Text) (seen : Bool)
  | value (t : Tag) (delimiter : Char) (ref : Option Text)
  /-- Behind the `/` of an empty element. -/
  | slash (opened : List Text)
  | endTag (opened : List Text) (name : Text)
  | endTagSpace (opened : List Text) (name : Text)
  | epilog
deriving DecidableEq

/-- The state behind an element. -/
def finish (opened : List Text) : State :=
  match opened with
  | [] => .epilog
  | _ :: _ => .content opened (none, 0)

/-- The state behind the end tag of an element. -/
def closeElement (opened : List Text) (name : Text) : Option State :=
  match opened with
  | [] => none
  | m :: rest => if m = name then some (finish rest) else none

/-- The element of a start tag is open. -/
def openElement (opened : List Text) (name : Text) : State := .content (name :: opened) (none, 0)

/-- One character. -/
def step : State → Char → Option State
  | .prolog, c => if isSpace c then some .prolog else if c = '<' then some (.opening []) else none
  | .content opened data, c =>
      if c = '<' ∧ data.1 = none then some (.opening opened)
      else (textStep data c).map (.content opened)
  | .opening opened, c =>
      if c = '/' then some (.endTag opened [])
      else if isNameStart c then some (.tagName opened [c])
      else none
  | .tagName opened name, c =>
      if isNameChar c then some (.tagName opened (name ++ [c]))
      else if isSpace c then some (.tag ⟨opened, name, []⟩ true)
      else if c = '/' then some (.slash opened)
      else if c = '>' then some (openElement opened name)
      else none
  | .tag t spaced, c =>
      if isSpace c then some (.tag t true)
      else if c = '/' then some (.slash t.opened)
      else if c = '>' then some (openElement t.opened t.name)
      else if spaced && isNameStart c then some (.attrName t [c])
      else none
  | .attrName t name, c =>
      if isNameChar c then some (.attrName t (name ++ [c]))
      else if t.attrs.contains name then none
      else if isSpace c then some (.equals t name false)
      else if c = '=' then some (.equals t name true)
      else none
  | .equals t name seen, c =>
      if isSpace c then some (.equals t name seen)
      else if seen = false then if c = '=' then some (.equals t name true) else none
      else if c = '"' ∨ c = quote then some (.value ⟨t.opened, t.name, name :: t.attrs⟩ c none)
      else none
  | .value t delimiter ref, c =>
      if c = delimiter ∧ ref = none then some (.tag t false)
      else if c = '<' then none
      else (dataStep ref c).map (.value t delimiter)
  | .slash opened, c => if c = '>' then some (finish opened) else none
  | .endTag opened name, c =>
      if (if name = [] then isNameStart c else isNameChar c) then some (.endTag opened (name ++ [c]))
      else if isSpace c then some (.endTagSpace opened name)
      else if c = '>' then closeElement opened name
      else none
  | .endTagSpace opened name, c =>
      if isSpace c then some (.endTagSpace opened name)
      else if c = '>' then closeElement opened name
      else none
  | .epilog, c => if isSpace c then some .epilog else none

/-- A text, from a state on. -/
def run : State → Text → Option State
  | st, [] => some st
  | st, c :: s => (step st c).bind (run · s)

/-- A well-formed document. -/
def WellFormed (s : Text) : Prop := run .prolog s = some .epilog

/-! ## Generated documents -/

/-- A piece of a generated document. -/
inductive Piece where
  /-- Markup of the program. -/
  | markup (s : Text)
  /-- A text of the program that needs no escaping, such as a number. -/
  | plain (s : Text)
  /-- A string that is meant as character data. -/
  | text (s : Text)
  /-- A string that is meant as part of an attribute value. -/
  | attr (s : Text)

namespace Piece

/-- What a piece adds to the document. -/
def out : Piece → Text
  | markup s | plain s | text s | attr s => s

end Piece

/-- The document. -/
def join (ps : List Piece) : Text := ps.flatMap Piece.out

/-- The reader is in the content of an element. -/
def State.inContent : State → Bool
  | .content _ _ => true
  | _ => false

/-- The reader is in an attribute value. -/
def State.inValue : State → Bool
  | .value _ _ _ => true
  | _ => false

/-- Read from `st` on, the reader stays in some places throughout `s`. -/
def Stays (inside : State → Bool) (st : State) (before s : Text) : Prop :=
  ∀ u, u <+: s → ∃ st', run st (before ++ u) = some st' ∧ inside st' = true

/-- From `st` on, the document is read to its end, and its strings stay where they were meant
to be. -/
structure SoundFrom (st : State) (ps : List Piece) : Prop where
  accepted : run st (join ps) = some .epilog
  text : ∀ pre s post, ps = pre ++ .text s :: post → Stays State.inContent st (join pre) s
  attr : ∀ pre s post, ps = pre ++ .attr s :: post → Stays State.inValue st (join pre) s

/-- The document is well formed, and its strings are character data and parts of attribute
values as they were meant to be. -/
def Sound (ps : List Piece) : Prop := SoundFrom .prolog ps

/-- A character of a plain text. -/
def isPlainChar (c : Char) : Bool := isXmlChar c && !(txt "<&>]\"").contains c

/-- The next piece is markup that starts with one of some characters. -/
def nextIs (chars : Text) : List Piece → Bool
  | .markup (c :: _) :: _ => chars.contains c
  | _ => false

/-- The reader on the pieces, without a look at the strings. -/
def walk : State → List Piece → Option State
  | st, [] => some st
  | st, .markup s :: ps => (run st s).bind (walk · ps)
  | .content opened (none, 0), .plain _ :: ps => walk (.content opened (none, 0)) ps
  | .value t '"' none, .plain _ :: ps => walk (.value t '"' none) ps
  | .content opened (none, 0), .text _ :: ps =>
      if nextIs (txt "<:") ps then walk (.content opened (none, 0)) ps else none
  | .value t '"' none, .attr _ :: ps =>
      if nextIs [quote] ps then walk (.value t '"' none) ps else none
  | _, _ :: _ => none

/-! ## Reading in parts -/

theorem run_append (st : State) (a b : Text) : run st (a ++ b) = (run st a).bind (run · b) := by
  induction a generalizing st with
  | nil => rfl
  | cons c a ih =>
      rw [List.cons_append, run, run]
      cases step st c with
      | none => rfl
      | some st' => exact ih st'

theorem run_append_of_some {st st' : State} {a : Text} (h : run st a = some st') (b : Text) :
    run st (a ++ b) = run st' b := by
  rw [run_append, h]
  rfl

theorem join_cons (p : Piece) (ps : List Piece) : join (p :: ps) = p.out ++ join ps := List.flatMap_cons

theorem stays_shift {inside : State → Bool} {st st' : State} {a : Text} (h : run st a = some st')
    (b s : Text) : Stays inside st (a ++ b) s ↔ Stays inside st' b s := by
  unfold Stays
  simp only [List.append_assoc, run_append_of_some h]

/-! ## Staying in one place

While the reader stays in the content of an element, or in an attribute value, a smaller
machine says how it goes on. -/

/-- A machine follows the reader while it stays in some places. -/
structure Follows {σ : Type} (f : σ → Char → Option σ) (place : σ → State) (inside : State → Bool) :
    Prop where
  within : ∀ d, inside (place d) = true
  stay : ∀ d c d', f d c = some d' → step (place d) c = some (place d')
  leave : ∀ d c, f d c = none → ∀ st, step (place d) c = some st → inside st = false

section

variable {σ : Type} {f : σ → Char → Option σ} {place : σ → State} {inside : State → Bool}

theorem Follows.run (hf : Follows f place inside) {s : Text} {d d' : σ}
    (h : s.foldlM f d = some d') : run (place d) s = some (place d') := by
  induction s generalizing d with
  | nil =>
      obtain rfl := Option.some.inj h
      rfl
  | cons c s ih =>
      rw [List.foldlM_cons, Option.bind_eq_bind, Option.bind_eq_some_iff] at h
      obtain ⟨e, hc, hs⟩ := h
      rw [Xml.run, hf.stay d c e hc]
      exact ih hs

/-- The reader stays exactly as long as the machine goes on. -/
theorem Follows.stays_iff (hf : Follows f place inside) {s : Text} {d : σ} :
    Stays inside (place d) [] s ↔ ∃ d', s.foldlM f d = some d' := by
  constructor
  · intro h
    induction s generalizing d with
    | nil => exact ⟨d, rfl⟩
    | cons c s ih =>
        obtain ⟨st, hst, hinside⟩ := h [c] ⟨s, rfl⟩
        have hstep : step (place d) c = some st := by
          have hone : Xml.run (place d) ([] ++ [c]) = (step (place d) c).bind some := rfl
          rw [hone, Option.bind_fun_some] at hst
          exact hst
        cases hc : f d c with
        | none =>
            rw [hf.leave d c hc st hstep] at hinside
            exact absurd hinside (by simp)
        | some e =>
            have hshift : Xml.run (place d) [c] = some (place e) := by
              rw [Xml.run, hf.stay d c e hc]
              rfl
            obtain ⟨d', hd'⟩ := ih (d := e) fun u hu => by
              obtain ⟨st', h1, h2⟩ := h (c :: u) (List.cons_prefix_cons.mpr ⟨rfl, hu⟩)
              refine ⟨st', ?_, h2⟩
              have hsplit : [] ++ c :: u = [c] ++ u := rfl
              rw [hsplit, run_append_of_some hshift] at h1
              exact h1
            refine ⟨d', ?_⟩
            rw [List.foldlM_cons, hc]
            exact hd'
  · rintro ⟨d', hd'⟩ u ⟨v, rfl⟩
    rw [List.foldlM_append, Option.bind_eq_bind, Option.bind_eq_some_iff] at hd'
    obtain ⟨e, hu, -⟩ := hd'
    exact ⟨place e, hf.run hu, hf.within e⟩

end

/-- Character data in an element. -/
theorem textStep_follows (opened : List Text) :
    Follows textStep (State.content opened) State.inContent where
  within _ := rfl
  stay d c d' h := by
    have hc : ¬(c = '<' ∧ d.1 = none) := by
      rintro ⟨rfl, -⟩
      rw [textStep, if_pos rfl] at h
      exact absurd h (by simp)
    rw [step, if_neg hc, h]
    rfl
  leave d c h st hst := by
    rw [step, h] at hst
    split at hst
    · obtain rfl := Option.some.inj hst
      rfl
    · exact absurd hst (by simp)

/-- A part of an attribute value. -/
theorem valueStep_follows (t : Tag) :
    Follows valueStep (State.value t '"') State.inValue where
  within _ := rfl
  stay ref c ref' h := by
    rw [valueStep] at h
    split at h
    · exact absurd h (by simp)
    · rename_i hc
      rw [not_or] at hc
      rw [step, if_neg (fun hq => hc.1 hq.1), if_neg hc.2, h]
      rfl
  leave ref c h st hst := by
    rw [valueStep] at h
    rw [step] at hst
    split at h
    · rename_i hc
      rcases hc with rfl | rfl
      · cases ref with
        | none =>
            obtain rfl := Option.some.inj hst
            rfl
        | some name => exact absurd hst (by simp [dataStep, isRefChar])
      · exact absurd hst (by simp)
    · rename_i hc
      rw [not_or] at hc
      rw [if_neg (fun hq => hc.1 hq.1), if_neg hc.2, h] at hst
      exact absurd hst (by simp)

/-! ## Piece by piece -/

namespace Piece

/-- The reader stays where a string was meant to be. -/
def Keeps (st : State) : Piece → Prop
  | text s => Stays State.inContent st [] s
  | attr s => Stays State.inValue st [] s
  | _ => True

/-- A string is what it is meant to be. -/
def fits : Piece → Bool
  | text s => isData s
  | attr s => isValue s
  | _ => true

/-- A plain text is one. -/
def clean : Piece → Bool
  | plain s => s.all isPlainChar
  | _ => true

@[simp] theorem fits_markup (s : Text) : (markup s).fits = true := rfl
@[simp] theorem fits_plain (s : Text) : (plain s).fits = true := rfl
@[simp] theorem fits_text (s : Text) : (text s).fits = isData s := rfl
@[simp] theorem fits_attr (s : Text) : (attr s).fits = isValue s := rfl

@[simp] theorem clean_markup (s : Text) : (markup s).clean = true := rfl
@[simp] theorem clean_plain (s : Text) : (plain s).clean = s.all isPlainChar := rfl
@[simp] theorem clean_text (s : Text) : (text s).clean = true := rfl
@[simp] theorem clean_attr (s : Text) : (attr s).clean = true := rfl

end Piece

theorem soundFrom_nil {st : State} : SoundFrom st [] ↔ st = .epilog := by
  constructor
  · intro h
    exact Option.some.inj h.accepted
  · rintro rfl
    exact ⟨rfl, fun pre s post h => absurd h (by simp), fun pre s post h => absurd h (by simp)⟩

theorem Piece.keeps_iff {st : State} {p : Piece} :
    p.Keeps st ↔ (∀ s, p = .text s → Stays State.inContent st [] s)
      ∧ ∀ s, p = .attr s → Stays State.inValue st [] s := by
  cases p <;> simp [Keeps]

/-- One kind of strings, with the first piece split off. -/
theorem forall_stays_cons {inside : State → Bool} {kind : Text → Piece} {st st' : State} {p : Piece}
    {ps : List Piece} (hp : run st p.out = some st') :
    (∀ pre s post, p :: ps = pre ++ kind s :: post → Stays inside st (join pre) s) ↔
      (∀ s, p = kind s → Stays inside st [] s)
        ∧ ∀ pre s post, ps = pre ++ kind s :: post → Stays inside st' (join pre) s := by
  have hshift : ∀ pre s, Stays inside st (join (p :: pre)) s ↔ Stays inside st' (join pre) s :=
    fun pre s => by rw [join_cons, stays_shift hp]
  constructor
  · intro h
    refine ⟨fun s hs => h [] s ps (by rw [hs]; rfl), fun pre s post hps => ?_⟩
    exact (hshift pre s).mp (h (p :: pre) s post (congrArg (p :: ·) hps))
  · rintro ⟨hfirst, hrest⟩ pre s post hps
    cases pre with
    | nil => exact hfirst s (List.cons.inj hps).1
    | cons q pre =>
        obtain ⟨rfl, htail⟩ := List.cons.inj hps
        exact (hshift pre s).mpr (hrest pre s post htail)

theorem soundFrom_cons {st st' : State} {p : Piece} {ps : List Piece}
    (hp : run st p.out = some st') :
    SoundFrom st (p :: ps) ↔ p.Keeps st ∧ SoundFrom st' ps := by
  have haccepted : run st (join (p :: ps)) = run st' (join ps) := by
    rw [join_cons, run_append_of_some hp]
  constructor
  · intro h
    obtain ⟨htext, hrest⟩ := (forall_stays_cons hp).mp h.text
    obtain ⟨hattr, hrest'⟩ := (forall_stays_cons hp).mp h.attr
    exact ⟨Piece.keeps_iff.mpr ⟨htext, hattr⟩, haccepted ▸ h.accepted, hrest, hrest'⟩
  · rintro ⟨hk, h⟩
    obtain ⟨htext, hattr⟩ := Piece.keeps_iff.mp hk
    exact ⟨haccepted ▸ h.accepted, (forall_stays_cons hp).mpr ⟨htext, h.text⟩,
      (forall_stays_cons hp).mpr ⟨hattr, h.attr⟩⟩

/-- Every piece is read to its end. -/
theorem SoundFrom.run_out {st : State} {p : Piece} {ps : List Piece} (h : SoundFrom st (p :: ps)) :
    ∃ st', run st p.out = some st' := by
  have hrun := h.accepted
  rw [join_cons, run_append, Option.bind_eq_some_iff] at hrun
  obtain ⟨st', hst', -⟩ := hrun
  exact ⟨st', hst'⟩

/-- Two states from which the next piece leads to the same place. -/
theorem SoundFrom.congr {st₁ st₂ : State} {s : Text} {ps : List Piece} (h : run st₁ s = run st₂ s)
    (hs : SoundFrom st₁ (.markup s :: ps)) : SoundFrom st₂ (.markup s :: ps) := by
  obtain ⟨st', hst'⟩ := hs.run_out
  have hrun : run st₁ (Piece.markup s).out = some st' := hst'
  rw [soundFrom_cons hrun] at hs
  exact (soundFrom_cons (h.symm.trans hrun)).mpr hs

theorem nextIs_iff {chars : Text} {ps : List Piece} :
    nextIs chars ps = true ↔
      ∃ c s rest, ps = .markup (c :: s) :: rest ∧ chars.contains c = true := by
  constructor
  · intro h
    match ps, h with
    | .markup (c :: s) :: rest, h => exact ⟨c, s, rest, rfl, h⟩
  · rintro ⟨c, s, rest, rfl, h⟩
    exact h

/-- A string that a smaller machine reads, if what follows needs the machine to be in some of its
states and does not tell these apart. -/
theorem soundFrom_string {σ : Type} {f : σ → Char → Option σ} {place : σ → State}
    {inside : State → Bool} (hf : Follows f place inside) {d : σ} {p : Piece} {ps : List Piece}
    {P : σ → Prop} (hkeeps : p.Keeps (place d) = Stays inside (place d) [] p.out)
    (hneeds : ∀ d', SoundFrom (place d') ps → P d')
    (hsame : ∀ d', P d' → (SoundFrom (place d') ps ↔ SoundFrom (place d) ps)) :
    SoundFrom (place d) (p :: ps) ↔
      (∃ d', p.out.foldlM f d = some d' ∧ P d') ∧ SoundFrom (place d) ps := by
  constructor
  · intro h
    obtain ⟨st', hst'⟩ := h.run_out
    obtain ⟨hk, hs⟩ := (soundFrom_cons hst').mp h
    rw [hkeeps] at hk
    obtain ⟨d', hfold⟩ := hf.stays_iff.mp hk
    rw [hf.run hfold] at hst'
    obtain rfl := Option.some.inj hst'
    exact ⟨⟨d', hfold, hneeds d' hs⟩, (hsame d' (hneeds d' hs)).mp hs⟩
  · rintro ⟨⟨d', hfold, hd⟩, hs⟩
    refine (soundFrom_cons (hf.run hfold)).mpr ⟨?_, (hsame d' hd).mpr hs⟩
    rw [hkeeps]
    exact hf.stays_iff.mpr ⟨d', hfold⟩

theorem isData_iff {s : Text} :
    isData s = true ↔ ∃ data, s.foldlM textStep (none, 0) = some data ∧ data.1 = none := by
  unfold isData
  constructor
  · intro h
    split at h
    · exact ⟨_, ‹_›, rfl⟩
    · exact absurd h (by simp)
  · rintro ⟨⟨ref, brackets⟩, h, rfl⟩
    rw [h]

theorem isValue_iff {s : Text} :
    isValue s = true ↔ ∃ ref, s.foldlM valueStep none = some ref ∧ ref = none := by
  unfold isValue
  constructor
  · intro h
    split at h
    · exact ⟨_, ‹_›, rfl⟩
    · exact absurd h (by simp)
  · rintro ⟨ref, h, rfl⟩
    rw [h]

/-- Behind character data the markup goes on with `<` or `:`. Neither occurs in a reference, and
how many brackets were read does not matter to them. -/
theorem step_content_next {opened : List Text} {c : Char} (hc : (txt "<:").contains c = true)
    (data : Option Text × Nat) :
    step (.content opened data) c =
      if data.1 = none then step (.content opened (none, 0)) c else none := by
  obtain ⟨ref, brackets⟩ := data
  have hcases : c = '<' ∨ c = ':' := by simpa [txt] using hc
  rcases hcases with rfl | rfl
  · cases ref with
    | none => rfl
    | some name => rfl
  · cases ref with
    | none => rfl
    | some name => rfl

theorem soundFrom_text {opened : List Text} {s : Text} {ps : List Piece}
    (hnext : nextIs (txt "<:") ps = true) :
    SoundFrom (.content opened (none, 0)) (.text s :: ps) ↔
      isData s = true ∧ SoundFrom (.content opened (none, 0)) ps := by
  obtain ⟨c, m, rest, rfl, hc⟩ := nextIs_iff.mp hnext
  rw [isData_iff]
  refine soundFrom_string (textStep_follows opened) rfl ?_ ?_
  · rintro ⟨ref, brackets⟩ hs
    obtain ⟨st', hst'⟩ := hs.run_out
    cases ref with
    | none => rfl
    | some name =>
        have hstuck : run (.content opened (some name, brackets)) (c :: m) = none := by
          rw [run, step_content_next hc, if_neg (by simp)]
          rfl
        exact absurd (hstuck.symm.trans hst') (by simp)
  · rintro ⟨ref, brackets⟩ rfl
    have hread : run (.content opened (none, brackets)) (c :: m)
        = run (.content opened (none, 0)) (c :: m) := by
      rw [run, step_content_next hc, if_pos rfl, run]
    exact ⟨fun h => h.congr hread, fun h => h.congr hread.symm⟩

theorem soundFrom_attr {t : Tag} {s : Text} {ps : List Piece} (hnext : nextIs [quote] ps = true) :
    SoundFrom (.value t '"' none) (.attr s :: ps) ↔
      isValue s = true ∧ SoundFrom (.value t '"' none) ps := by
  obtain ⟨c, m, rest, rfl, hc⟩ := nextIs_iff.mp hnext
  obtain rfl : c = quote := by simpa using hc
  rw [isValue_iff]
  refine soundFrom_string (valueStep_follows t) rfl ?_ ?_
  · intro ref hs
    obtain ⟨st', hst'⟩ := hs.run_out
    cases ref with
    | none => rfl
    | some name =>
        have hstuck : run (.value t '"' (some name)) (quote :: m) = none := rfl
        exact absurd (hstuck.symm.trans hst') (by simp)
  · rintro ref rfl
    exact Iff.rfl

/-! ## Plain texts -/

theorem isPlainChar_spec {c : Char} (h : isPlainChar c = true) :
    isXmlChar c = true ∧ c ≠ '<' ∧ c ≠ '&' ∧ c ≠ '>' ∧ c ≠ ']' ∧ c ≠ '"' := by
  unfold isPlainChar at h
  rw [Bool.and_eq_true] at h
  refine ⟨h.1, ?_⟩
  simpa [txt] using h.2

theorem run_plain {s : Text} {st : State}
    (hstep : ∀ c, isPlainChar c = true → step st c = some st) (hs : s.all isPlainChar = true) :
    run st s = some st := by
  induction s with
  | nil => rfl
  | cons c s ih =>
      rw [List.all_cons, Bool.and_eq_true] at hs
      rw [run, hstep c hs.1]
      exact ih hs.2

theorem step_content_plain (opened : List Text) (c : Char) (h : isPlainChar c = true) :
    step (.content opened (none, 0)) c = some (.content opened (none, 0)) := by
  obtain ⟨hx, hlt, hamp, hgt, hbracket, -⟩ := isPlainChar_spec h
  refine (textStep_follows opened).stay (none, 0) c (none, 0) ?_
  rw [textStep, if_neg hlt, if_neg (fun hg => hgt hg.1), dataStep, if_neg hamp, if_pos hx,
    Option.map_some, if_neg hbracket]

theorem step_value_plain (t : Tag) (c : Char) (h : isPlainChar c = true) :
    step (.value t '"' none) c = some (.value t '"' none) := by
  obtain ⟨hx, hlt, hamp, -, -, hquote⟩ := isPlainChar_spec h
  refine (valueStep_follows t).stay none c none ?_
  rw [valueStep, if_neg (not_or.mpr ⟨hquote, hlt⟩), dataStep, if_neg hamp, if_pos hx]

/-! ## The walk -/

/-- If the walk over a document comes to its end, the document is sound if and only if every
string by itself is what it is meant to be. -/
theorem soundFrom_iff {st : State} {ps : List Piece} (hw : walk st ps = some .epilog)
    (hp : ∀ p ∈ ps, p.clean = true) : SoundFrom st ps ↔ ∀ p ∈ ps, p.fits = true := by
  fun_induction walk st ps with
  | case1 st =>
      obtain rfl := Option.some.inj hw
      exact iff_of_true (soundFrom_nil.mpr rfl) (fun p hmem => absurd hmem List.not_mem_nil)
  | case2 st s ps ih =>
      obtain ⟨st', hrun, hrest⟩ := Option.bind_eq_some_iff.mp hw
      have hmarkup : run st (Piece.markup s).out = some st' := hrun
      rw [soundFrom_cons hmarkup, ih st' hrest (List.forall_mem_cons.mp hp).2, List.forall_mem_cons]
      exact and_congr_left' (iff_of_true trivial rfl)
  | case3 opened s ps ih =>
      obtain ⟨hs, hrest⟩ := List.forall_mem_cons.mp hp
      have hplain : run (.content opened (none, 0)) (Piece.plain s).out
          = some (.content opened (none, 0)) := run_plain (step_content_plain opened) hs
      rw [soundFrom_cons hplain, ih hw hrest, List.forall_mem_cons]
      exact and_congr_left' (iff_of_true trivial rfl)
  | case4 t s ps ih =>
      obtain ⟨hs, hrest⟩ := List.forall_mem_cons.mp hp
      have hplain : run (.value t '"' none) (Piece.plain s).out = some (.value t '"' none) :=
        run_plain (step_value_plain t) hs
      rw [soundFrom_cons hplain, ih hw hrest, List.forall_mem_cons]
      exact and_congr_left' (iff_of_true trivial rfl)
  | case5 opened s ps hnext ih =>
      rw [soundFrom_text hnext, ih hw (List.forall_mem_cons.mp hp).2, List.forall_mem_cons]
      exact Iff.rfl
  | case6 => exact absurd hw (by simp)
  | case7 t s ps hnext ih =>
      rw [soundFrom_attr hnext, ih hw (List.forall_mem_cons.mp hp).2, List.forall_mem_cons]
      exact Iff.rfl
  | case8 => exact absurd hw (by simp)
  | case9 => exact absurd hw (by simp)

theorem nextIs_append {chars : Text} {a : List Piece} (h : nextIs chars a = true)
    (b : List Piece) : nextIs chars (a ++ b) = true := by
  obtain ⟨c, s, rest, rfl, hc⟩ := nextIs_iff.mp h
  exact hc

theorem walk_append {st st' : State} {a : List Piece} (h : walk st a = some st') (b : List Piece) :
    walk st (a ++ b) = walk st' b := by
  fun_induction walk st a with
  | case1 st =>
      obtain rfl := Option.some.inj h
      rfl
  | case2 st s ps ih =>
      obtain ⟨st'', hrun, hrest⟩ := Option.bind_eq_some_iff.mp h
      rw [List.cons_append, walk, hrun]
      exact ih st'' hrest
  | case3 opened s ps ih => exact ih h
  | case4 t s ps ih => exact ih h
  | case5 opened s ps hnext ih =>
      rw [List.cons_append, walk, if_pos (nextIs_append hnext b)]
      exact ih h
  | case6 => exact absurd h (by simp)
  | case7 t s ps hnext ih =>
      rw [List.cons_append, walk, if_pos (nextIs_append hnext b)]
      exact ih h
  | case8 => exact absurd h (by simp)
  | case9 => exact absurd h (by simp)

/-! ## Parts of a document -/

/-- A part of a document leads from one place to another, and its strings are what they are
meant to be under a condition. -/
structure Part (st st' : State) (ps : List Piece) (cond : Prop) : Prop where
  walks : walk st ps = some st'
  clean : ∀ p ∈ ps, p.clean = true
  strings : (∀ p ∈ ps, p.fits = true) ↔ cond

theorem Part.nil (st : State) : Part st st [] True where
  walks := rfl
  clean _ h := absurd h List.not_mem_nil
  strings := iff_of_true (fun _ h => absurd h List.not_mem_nil) trivial

theorem Part.append {st₁ st₂ st₃ : State} {a b : List Piece} {A B : Prop} (ha : Part st₁ st₂ a A)
    (hb : Part st₂ st₃ b B) : Part st₁ st₃ (a ++ b) (A ∧ B) where
  walks := by
    rw [walk_append ha.walks]
    exact hb.walks
  clean := List.forall_mem_append.mpr ⟨ha.clean, hb.clean⟩
  strings := by
    rw [List.forall_mem_append]
    exact and_congr ha.strings hb.strings

theorem Part.congr {st st' : State} {ps : List Piece} {A B : Prop} (h : Part st st' ps A)
    (hAB : A ↔ B) : Part st st' ps B :=
  ⟨h.walks, h.clean, h.strings.trans hAB⟩

/-- Parts that each come back to the same place. -/
theorem Part.flatMap {α : Type} {st : State} {l : List α} {f : α → List Piece} {A : α → Prop}
    (h : ∀ x ∈ l, Part st st (f x) (A x)) : Part st st (l.flatMap f) (∀ x ∈ l, A x) := by
  induction l with
  | nil => exact (Part.nil st).congr (iff_of_true trivial fun x hx => absurd hx List.not_mem_nil)
  | cons x l ih =>
      rw [List.flatMap_cons]
      exact ((h x List.mem_cons_self).append (ih fun y hy => h y (List.mem_cons_of_mem x hy))).congr
        List.forall_mem_cons.symm

/-- Parts that are made one after the other, and of which each may fail to be made. -/
theorem Part.mapM {α : Type} {st : State} {l : List α} {f : α → Option (List Piece)} {A : α → Prop}
    (h : ∀ x ∈ l, ∀ ps, f x = some ps → Part st st ps (A x)) {pss : List (List Piece)}
    (hm : l.mapM f = some pss) : Part st st pss.flatten (∀ x ∈ l, A x) := by
  induction l generalizing pss with
  | nil =>
      obtain rfl := Option.some.inj hm
      exact (Part.nil st).congr (iff_of_true trivial fun x hx => absurd hx List.not_mem_nil)
  | cons x l ih =>
      rw [List.mapM_cons, Option.bind_eq_bind, Option.bind_eq_some_iff] at hm
      obtain ⟨ps, hps, hm⟩ := hm
      rw [Option.bind_eq_bind, Option.bind_eq_some_iff] at hm
      obtain ⟨rest, hrest, hm⟩ := hm
      obtain rfl := Option.some.inj hm
      rw [List.flatten_cons]
      have hx := h x List.mem_cons_self ps hps
      exact (hx.append (ih (fun y hy => h y (List.mem_cons_of_mem x hy)) hrest)).congr
        List.forall_mem_cons.symm

/-- A whole document is sound under its condition. -/
theorem Part.sound_iff {ps : List Piece} {cond : Prop} (h : Part .prolog .epilog ps cond) :
    Sound ps ↔ cond :=
  (soundFrom_iff h.walks h.clean).trans h.strings

end Lib.Xml
