import LibAdb.Base.Banner
import LibAdb.Lib.Slices

/-!
# LibAdb.Base.BannerText — a banner as ranges of the bytes it came in

`base/device_banner.rs`, with the ranges it keeps.  A `Str` is a string where it lies in memory; splitting one gives
others that lie in it, and `rangeOf` is the difference of two addresses.  `fromBytes` keeps ranges where `parseInner`
keeps text, and every range selects that text (`fromBytes_views`), so what a banner was rendered from is what its
accessors return (`banner_reads_back`).
-/

namespace LibAdb

open Slices

/-! ## Strings in memory -/

/-- A `&str`: its address and its bytes. -/
structure Str where
  addr : ℕ
  text : Bytes
  deriving DecidableEq, Repr

namespace Str

/-- `split_once` -/
def splitOnce (c : Byte) (s : Str) : Option (Str × Str) :=
  (LibAdb.splitOnce c s.text).map fun p => (⟨s.addr, p.1⟩, ⟨s.addr + p.1.length + 1, p.2⟩)

/-- Pieces that lie one behind the other with a byte between them. -/
def pieces (addr : ℕ) : List Bytes → List Str
  | [] => []
  | text :: texts => ⟨addr, text⟩ :: pieces (addr + text.length + 1) texts

/-- `split` -/
def split (p : Byte → Bool) (s : Str) : List Str := pieces s.addr (s.text.splitOnP p)

/-- `sub` lies in `base`. -/
structure LiesIn (base sub : Str) : Prop where
  start : base.addr ≤ sub.addr
  stop : sub.addr - base.addr + sub.text.length ≤ base.text.length
  select : slice base.text (sub.addr - base.addr) (sub.addr - base.addr + sub.text.length) = sub.text

end Str

/-- `range_of` -/
def rangeOf (base sub : Str) : ℕ × ℕ := (sub.addr - base.addr, sub.addr - base.addr + sub.text.length)

/-! ## The banner -/

/-- `DeviceBanner` -/
structure RangedBanner where
  raw : Bytes
  state : ℕ × ℕ
  serial : ℕ × ℕ
  properties : List ((ℕ × ℕ) × (ℕ × ℕ))
  features : List Feature
  deriving DecidableEq

namespace RangedBanner

open DeviceBanner

/-- The body of the loop over the parts of `s`. -/
def addPart (s : Str) (maxProperties : ℕ) (acc : List ((ℕ × ℕ) × (ℕ × ℕ)) × List Feature) (part : Str) :
    Except ProtocolError (List ((ℕ × ℕ) × (ℕ × ℕ)) × List Feature) :=
  if part.text = [] then .ok acc
  else match part.splitOnce equals with
    | none => .error .invalidBannerKeyValue
    | some (key, value) =>
      if key.text = ascii "features" then
        .ok (acc.1, ((value.split isComma).map Str.text).foldl addFeature acc.2)
      else if acc.1.length = maxProperties then .error .tooManyBannerProperties
      else .ok (acc.1 ++ [(rangeOf s key, rangeOf s value)], acc.2)

/-- `from_bytes`, of bytes that lie at `addr`. -/
def fromBytes (addr : ℕ) (raw : Bytes) (maxProperties : ℕ) : Except ProtocolError RangedBanner :=
  if validUtf8 raw = false then .error .invalidBannerUtf8
  else
    let s : Str := ⟨addr, raw⟩
    match s.splitOnce colon with
    | none => .error .invalidBannerPrefix
    | some (state, rest) =>
      match rest.splitOnce colon with
      | none => .error .invalidBannerPrefix
      | some (serial, payload) =>
        match (payload.split isSemicolon).foldlM (addPart s maxProperties) ([], []) with
        | .error e => .error e
        | .ok (properties, features) => .ok ⟨raw, rangeOf s state, rangeOf s serial, properties, features⟩

variable (b : RangedBanner)

/-- `str_at`; `none` is its panic. -/
def strAt (range : ℕ × ℕ) : Option Bytes :=
  if range.1 ≤ range.2 ∧ range.2 ≤ b.raw.length ∧ validUtf8 (slice b.raw range.1 range.2) = true then
    some (slice b.raw range.1 range.2)
  else none

/-- `state_str` -/
def stateStr : Option Bytes := b.strAt b.state

/-- `serial` -/
def serialStr : Option Bytes := b.strAt b.serial

/-- `properties()`, all of them. -/
def propertyTexts : Option (List (Bytes × Bytes)) :=
  b.properties.mapM fun p => do
    let key ← b.strAt p.1
    let value ← b.strAt p.2
    pure (key, value)

/-- The loop of `property`. -/
def findProperty (key : Bytes) : List ((ℕ × ℕ) × (ℕ × ℕ)) → Option (Option Bytes)
  | [] => some none
  | p :: ps => do
    let k ← b.strAt p.1
    if k = key then
      let v ← b.strAt p.2
      pure (some v)
    else findProperty key ps

/-- `property` -/
def property (key : Bytes) : Option (Option Bytes) := b.findProperty key b.properties

end RangedBanner

/-! ## Ranges select text -/

namespace Str

variable {base s a b : Str} {c : Byte}

theorem LiesIn.refl (s : Str) : s.LiesIn s where
  start := le_rfl
  stop := by rw [Nat.sub_self, Nat.zero_add]
  select := by rw [Nat.sub_self, Nat.zero_add, slice, List.take_length, List.drop_zero]

/-- A stretch of a string that lies in `base`. -/
theorem LiesIn.stretch (h : base.LiesIn s) (front text back : Bytes) {n : ℕ} (heq : s.text = front ++ (text ++ back))
    (hn : n = s.addr + front.length) : base.LiesIn ⟨n, text⟩ := by
  subst hn
  have hstart := h.start
  have hstop := h.stop
  have hlen : s.text.length = front.length + (text.length + back.length) := by
    rw [heq, List.length_append, List.length_append]
  have hoff : s.addr + front.length - base.addr = s.addr - base.addr + front.length := by omega
  refine ⟨by dsimp only; omega, by dsimp only; omega, ?_⟩
  dsimp only
  have hsel := h.select
  rw [heq] at hsel
  have htext : text = ((front ++ (text ++ back)).drop front.length).take text.length := by
    rw [List.drop_left, List.take_left]
  rw [hoff]
  conv_rhs => rw [htext, ← hsel]
  apply List.ext_getElem?
  intro i
  rw [getElem?_slice, List.getElem?_take, List.getElem?_drop, getElem?_slice]
  have hlens : (front ++ (text ++ back)).length = front.length + (text.length + back.length) := by
    rw [← heq, hlen]
  by_cases hi : i < text.length
  · rw [if_pos (by omega), if_pos hi, if_pos (by omega)]
    congr 1
    omega
  · rw [if_neg (by omega), if_neg hi]

theorem splitOnce_eq_some (h : s.splitOnce c = some (a, b)) :
    LibAdb.splitOnce c s.text = some (a.text, b.text) ∧ a.addr = s.addr ∧ b.addr = s.addr + a.text.length + 1 := by
  obtain ⟨p, hp, heq⟩ := Option.map_eq_some_iff.mp h
  obtain ⟨rfl, rfl⟩ := Prod.mk.inj heq
  exact ⟨hp, rfl, rfl⟩

theorem LiesIn.splitOnce (h : base.LiesIn s) (hs : s.splitOnce c = some (a, b)) : base.LiesIn a ∧ base.LiesIn b := by
  obtain ⟨hsplit, ha, hb⟩ := splitOnce_eq_some hs
  obtain ⟨-, heq⟩ := LibAdb.splitOnce_eq_some.mp hsplit
  refine ⟨h.stretch [] a.text (c :: b.text) heq ha, h.stretch (a.text ++ [c]) b.text [] ?_ ?_⟩
  · rw [heq, List.append_nil, List.append_assoc]
    rfl
  · rw [hb, List.length_append, List.length_singleton, Nat.add_assoc]

/-- The pieces of a string lie where it does. -/
theorem LiesIn.split (h : base.LiesIn s) (p : Byte → Bool) : ∀ piece ∈ s.split p, base.LiesIn piece := by
  induction hlen : s.text.length using Nat.strong_induction_on generalizing s with
  | _ n ih =>
    intro piece hpiece
    rw [Str.split] at hpiece
    rcases splitOnP_cases p s.text with ⟨hone, -⟩ | ⟨front, sep, rest, heq, hmore, -⟩
    · rw [hone, pieces, pieces, List.mem_singleton] at hpiece
      exact hpiece ▸ h
    · rw [hmore, pieces] at hpiece
      rcases List.mem_cons.mp hpiece with rfl | hpiece
      · exact h.stretch [] front (sep :: rest) heq rfl
      · have hrest : base.LiesIn ⟨s.addr + front.length + 1, rest⟩ := by
          refine h.stretch (front ++ [sep]) rest [] ?_ ?_
          · rw [heq, List.append_nil, List.append_assoc]
            rfl
          · rw [List.length_append, List.length_singleton, Nat.add_assoc]
        have hshort : rest.length < n := by
          rw [← hlen, heq, List.length_append, List.length_cons]
          omega
        exact ih rest.length hshort hrest rfl piece hpiece

@[simp] theorem map_text_pieces (addr : ℕ) (texts : List Bytes) : (pieces addr texts).map text = texts := by
  induction texts generalizing addr with
  | nil => rfl
  | cons t ts ih => rw [pieces, List.map_cons, ih]

@[simp] theorem map_text_split (p : Byte → Bool) (s : Str) : (s.split p).map text = s.text.splitOnP p :=
  map_text_pieces _ _

end Str

/-- A range that selects a text. -/
structure Selects (raw : Bytes) (range : ℕ × ℕ) (text : Bytes) : Prop where
  order : range.1 ≤ range.2
  stop : range.2 ≤ raw.length
  select : slice raw range.1 range.2 = text

theorem Str.LiesIn.selects {base sub : Str} (h : base.LiesIn sub) :
    Selects base.text (rangeOf base sub) sub.text := ⟨Nat.le_add_right _ _, h.stop, h.select⟩

/-- A pair of ranges that selects a pair of texts. -/
def SelectsBoth (raw : Bytes) (ranges : (ℕ × ℕ) × (ℕ × ℕ)) (texts : Bytes × Bytes) : Prop :=
  Selects raw ranges.1 texts.1 ∧ Selects raw ranges.2 texts.2

/-- The banner that keeps ranges, and the one that keeps what they select. -/
structure RangedBanner.Views (r : RangedBanner) (b : DeviceBanner) : Prop where
  raw : r.raw = b.raw
  state : Selects r.raw r.state b.state
  serial : Selects r.raw r.serial b.serial
  properties : List.Forall₂ (SelectsBoth r.raw) r.properties b.properties
  features : r.features = b.features

namespace RangedBanner

open DeviceBanner

/-- Both fail alike, or both go on. -/
inductive Alike {α β : Type} (R : α → β → Prop) : Except ProtocolError α → Except ProtocolError β → Prop
  | error (e : ProtocolError) : Alike R (.error e) (.error e)
  | ok {a : α} {b : β} (h : R a b) : Alike R (.ok a) (.ok b)

/-- What is kept so far, as ranges and as text. -/
def Kept (s : Str) (acc : List ((ℕ × ℕ) × (ℕ × ℕ)) × List Feature) (acc' : List (Bytes × Bytes) × List Feature) : Prop :=
  List.Forall₂ (SelectsBoth s.text) acc.1 acc'.1 ∧ acc.2 = acc'.2

theorem addPart_alike {s part : Str} {m : ℕ} {acc : List ((ℕ × ℕ) × (ℕ × ℕ)) × List Feature}
    {acc' : List (Bytes × Bytes) × List Feature} (hpart : s.LiesIn part) (h : Kept s acc acc') :
    Alike (Kept s) (addPart s m acc part) (parsePart m acc' part.text) := by
  obtain ⟨hprops, hfeats⟩ := h
  unfold addPart parsePart
  by_cases hempty : part.text = []
  · rw [if_pos hempty, if_pos hempty]
    exact .ok ⟨hprops, hfeats⟩
  · rw [if_neg hempty, if_neg hempty]
    cases hsplit : part.splitOnce equals with
    | none =>
      rw [Option.map_eq_none_iff.mp hsplit]
      exact .error _
    | some kv =>
      obtain ⟨key, value⟩ := kv
      obtain ⟨htext, -, -⟩ := Str.splitOnce_eq_some hsplit
      obtain ⟨hkey, hvalue⟩ := hpart.splitOnce hsplit
      rw [htext]
      dsimp only
      by_cases hfeat : key.text = ascii "features"
      · rw [if_pos hfeat, if_pos hfeat, Str.map_text_split, hfeats]
        exact .ok ⟨hprops, rfl⟩
      · rw [if_neg hfeat, if_neg hfeat, hprops.length_eq]
        by_cases hfull : acc'.1.length = m
        · rw [if_pos hfull, if_pos hfull]
          exact .error _
        · rw [if_neg hfull, if_neg hfull]
          exact .ok ⟨List.rel_append hprops (.cons ⟨hkey.selects, hvalue.selects⟩ .nil), hfeats⟩

theorem addParts_alike {s : Str} {m : ℕ} {parts : List Str} (hparts : ∀ part ∈ parts, s.LiesIn part)
    {acc : List ((ℕ × ℕ) × (ℕ × ℕ)) × List Feature} {acc' : List (Bytes × Bytes) × List Feature} (h : Kept s acc acc') :
    Alike (Kept s) (parts.foldlM (addPart s m) acc) ((parts.map Str.text).foldlM (parsePart m) acc') := by
  induction parts generalizing acc acc' with
  | nil => exact .ok h
  | cons part parts ih =>
    have hone := @addPart_alike s part m acc acc' (hparts part List.mem_cons_self) h
    rw [List.map_cons, List.foldlM_cons, List.foldlM_cons]
    generalize addPart s m acc part = r at hone
    generalize parsePart m acc' part.text = r' at hone
    cases hone with
    | error e => exact .error e
    | ok hkept => exact ih (fun p hp => hparts p (List.mem_cons_of_mem _ hp)) hkept

/-- **The ranges select what the parser read.** -/
theorem fromBytes_views (addr : ℕ) (raw : Bytes) (m : ℕ) : Alike Views (fromBytes addr raw m) (parseInner raw m) := by
  unfold fromBytes parseInner
  by_cases hutf8 : validUtf8 raw = false
  · rw [if_pos hutf8, if_pos hutf8]
    exact .error _
  rw [if_neg hutf8, if_neg hutf8]
  dsimp only
  have hs : (⟨addr, raw⟩ : Str).LiesIn ⟨addr, raw⟩ := .refl _
  generalize hbase : (⟨addr, raw⟩ : Str) = s at hs
  obtain rfl : s.text = raw := by rw [← hbase]
  cases h1 : s.splitOnce colon with
  | none =>
    rw [Option.map_eq_none_iff.mp h1]
    exact .error _
  | some sr =>
    obtain ⟨state, rest⟩ := sr
    obtain ⟨htext1, -, -⟩ := Str.splitOnce_eq_some h1
    obtain ⟨hstate, hrest⟩ := hs.splitOnce h1
    rw [htext1]
    dsimp only
    cases h2 : rest.splitOnce colon with
    | none =>
      rw [Option.map_eq_none_iff.mp h2]
      exact .error _
    | some sp =>
      obtain ⟨serial, payload⟩ := sp
      obtain ⟨htext2, -, -⟩ := Str.splitOnce_eq_some h2
      obtain ⟨hserial, hpayload⟩ := hrest.splitOnce h2
      rw [htext2]
      dsimp only
      have hparts := @addParts_alike s m _ (hpayload.split isSemicolon) ([], []) ([], []) ⟨.nil, rfl⟩
      rw [Str.map_text_split] at hparts
      generalize (payload.split isSemicolon).foldlM (addPart s m) ([], []) = r at hparts
      generalize (payload.text.splitOnP isSemicolon).foldlM (parsePart m) ([], []) = r' at hparts
      cases hparts with
      | error e => exact .error e
      | ok hkept => exact .ok ⟨rfl, hstate.selects, hserial.selects, hkept.1, hkept.2⟩

/-! ## What the accessors return -/

variable {r : RangedBanner} {b : DeviceBanner}

theorem strAt_of_selects {range : ℕ × ℕ} {text : Bytes} (h : Selects r.raw range text) (hutf8 : validUtf8 text = true) :
    r.strAt range = some text := by
  rw [strAt, if_pos ⟨h.order, h.stop, h.select ▸ hutf8⟩, h.select]

theorem propertyTexts_of_selects (h : r.Views b)
    (hutf8 : ∀ p ∈ b.properties, validUtf8 p.1 = true ∧ validUtf8 p.2 = true) :
    r.propertyTexts = some b.properties := by
  have hall : ∀ {ranges : List ((ℕ × ℕ) × (ℕ × ℕ))} {texts : List (Bytes × Bytes)},
      List.Forall₂ (SelectsBoth r.raw) ranges texts → (∀ p ∈ texts, validUtf8 p.1 = true ∧ validUtf8 p.2 = true) →
      (ranges.mapM fun p => do
        let key ← r.strAt p.1
        let value ← r.strAt p.2
        pure (key, value)) = some texts := by
    intro ranges texts hsel hvalid
    induction hsel with
    | nil => rfl
    | cons hp hps ih =>
      obtain ⟨hkey, hvalue⟩ := hvalid _ List.mem_cons_self
      rw [List.mapM_cons, strAt_of_selects hp.1 hkey, strAt_of_selects hp.2 hvalue,
        ih fun p hp => hvalid p (List.mem_cons_of_mem _ hp)]
      rfl
  exact hall h.properties hutf8

theorem property_of_selects (h : r.Views b)
    (hutf8 : ∀ p ∈ b.properties, validUtf8 p.1 = true ∧ validUtf8 p.2 = true) (key : Bytes) :
    r.property key = some ((b.properties.find? fun p => p.1 = key).map Prod.snd) := by
  have hall : ∀ {ranges : List ((ℕ × ℕ) × (ℕ × ℕ))} {texts : List (Bytes × Bytes)},
      List.Forall₂ (SelectsBoth r.raw) ranges texts → (∀ p ∈ texts, validUtf8 p.1 = true ∧ validUtf8 p.2 = true) →
      r.findProperty key ranges = some ((texts.find? fun p => p.1 = key).map Prod.snd) := by
    intro ranges texts hsel hvalid
    induction hsel with
    | nil => rfl
    | @cons range text ranges texts hp hps ih =>
      obtain ⟨hkey, hvalue⟩ := hvalid _ List.mem_cons_self
      rw [findProperty, strAt_of_selects hp.1 hkey, strAt_of_selects hp.2 hvalue, List.find?_cons]
      by_cases hk : text.1 = key
      · simp [hk]
      · have hrest := ih fun p hp => hvalid p (List.mem_cons_of_mem _ hp)
        simp [hk, hrest]
  exact hall h.properties hutf8

end RangedBanner

/-! ## Rendered banners -/

/-- One entry of a banner. -/
inductive Entry where
  | property (key value : Bytes)
  | features (names : List Bytes)
  | empty

namespace Entry

open DeviceBanner

def text : Entry → Bytes
  | .property key value => key ++ equals :: value
  | .features names => ascii "features" ++ equals :: [comma].intercalate names
  | .empty => []

/-- The strings an entry can be rendered from. -/
def Valid : Entry → Prop
  | .property key value => validUtf8 key = true ∧ validUtf8 value = true ∧ equals ∉ key ∧ semicolon ∉ key ∧
      key ≠ ascii "features" ∧ semicolon ∉ value
  | .features names => ∀ name ∈ names, validUtf8 name = true ∧ comma ∉ name ∧ semicolon ∉ name
  | .empty => True

instance : DecidablePred Valid
  | .property _ _ => inferInstanceAs (Decidable (_ ∧ _))
  | .features names => inferInstanceAs (Decidable (∀ name ∈ names, _ ∧ _))
  | .empty => inferInstanceAs (Decidable True)

def property? : Entry → Option (Bytes × Bytes)
  | .property key value => some (key, value)
  | _ => none

def names : Entry → List Bytes
  | .features names => names
  | _ => []

end Entry

/-- What a banner is rendered from. -/
structure Rendering where
  state : Bytes
  serial : Bytes
  entries : List Entry
  state_ok : validUtf8 state = true ∧ colon ∉ state
  serial_ok : validUtf8 serial = true ∧ colon ∉ serial
  entries_ok : ∀ e ∈ entries, e.Valid

namespace Rendering

open DeviceBanner RangedBanner

variable (x : Rendering)

/-- `state:serial:` and the entries with semicolons between them. -/
def text : Bytes :=
  x.state ++ colon :: (x.serial ++ colon :: [semicolon].intercalate (x.entries.map Entry.text))

def properties : List (Bytes × Bytes) := x.entries.filterMap Entry.property?

def names : List Bytes := x.entries.flatMap Entry.names

end Rendering

/-- Pieces without separators are what splitting finds. -/
theorem splitOnP_intercalate {p : Byte → Bool} {sep : Byte} (hsep : p sep = true) {ls : List Bytes} (hne : ls ≠ [])
    (h : ∀ l ∈ ls, ∀ b ∈ l, p b = false) : ([sep].intercalate ls).splitOnP p = ls := by
  induction ls with
  | nil => exact absurd rfl hne
  | cons l ls ih =>
    have hl := h l List.mem_cons_self
    cases ls with
    | nil =>
      rw [List.intercalate_singleton]
      exact List.splitOnP_eq_singleton hl
    | cons l' ls =>
      rw [List.intercalate_cons_cons, List.append_assoc, List.singleton_append,
        List.splitOnP_append_cons_of_forall_mem hl sep hsep, ih (List.cons_ne_nil _ _)
        fun l hl => h l (List.mem_cons_of_mem _ hl)]

theorem validUtf8_intercalate {sep : Byte} (hsep : sep < 0x80) {ls : List Bytes} (h : ∀ l ∈ ls, validUtf8 l = true) :
    validUtf8 ([sep].intercalate ls) = true := by
  induction ls with
  | nil => rfl
  | cons l ls ih =>
    have hl := h l List.mem_cons_self
    cases ls with
    | nil =>
      rw [List.intercalate_singleton]
      exact hl
    | cons l' ls =>
      rw [List.intercalate_cons_cons, List.append_assoc, validUtf8_append hl, List.singleton_append,
        validUtf8_ascii hsep]
      exact ih fun l hl => h l (List.mem_cons_of_mem _ hl)

theorem notMem_intercalate {sep b : Byte} (hsep : b ≠ sep) {ls : List Bytes} (h : ∀ l ∈ ls, b ∉ l) :
    b ∉ [sep].intercalate ls := by
  induction ls with
  | nil => exact List.not_mem_nil
  | cons l ls ih =>
    have hl := h l List.mem_cons_self
    cases ls with
    | nil =>
      rw [List.intercalate_singleton]
      exact hl
    | cons l' ls =>
      rw [List.intercalate_cons_cons]
      have hrest := ih fun l hl => h l (List.mem_cons_of_mem _ hl)
      simp [hl, hsep, hrest]

namespace Entry

open DeviceBanner

theorem Valid.utf8 {e : Entry} (h : e.Valid) : validUtf8 e.text = true := by
  cases e with
  | property key value =>
    obtain ⟨hkey, hvalue, -⟩ := h
    rw [text, validUtf8_append hkey, validUtf8_ascii (by decide), hvalue]
  | features names =>
    have hall : (ascii "features").all (fun b => decide (b < 0x80)) = true := rfl
    have hkey : validUtf8 (ascii "features") = true :=
      validUtf8_of_ascii fun b hb => of_decide_eq_true (List.all_eq_true.mp hall b hb)
    rw [text, validUtf8_append hkey, validUtf8_ascii (by decide)]
    exact validUtf8_intercalate (by decide) fun name hname => (h name hname).1
  | empty => rfl

theorem Valid.no_semicolon {e : Entry} (h : e.Valid) : ∀ b ∈ e.text, isSemicolon b = false := by
  have hnot : semicolon ∉ e.text := by
    cases e with
    | property key value =>
      obtain ⟨-, -, -, hkey, -, hvalue⟩ := h
      have hequals : semicolon ≠ equals := by decide
      simp [text, hkey, hvalue, hequals]
    | features names =>
      have hkey : semicolon ∉ ascii "features" := by decide
      have hequals : semicolon ≠ equals := by decide
      have hcomma : semicolon ≠ comma := by decide
      have hnames := notMem_intercalate hcomma fun name hname => (h name hname).2.2
      simp [text, hkey, hequals, hnames]
    | empty => exact List.not_mem_nil
  intro b hb
  rw [isSemicolon, decide_eq_false_iff_not]
  rintro rfl
  exact hnot hb

/-- The names of a features entry are taken in one by one. -/
theorem foldl_names (names : List Bytes) (h : ∀ name ∈ names, comma ∉ name) (features : List Feature) :
    (([comma].intercalate names).splitOnP isComma).foldl addFeature features = names.foldl addFeature features := by
  cases names with
  | nil =>
    have hnone : Feature.tryFrom [] = none := by decide +kernel
    show addFeature features [] = features
    rw [addFeature, hnone]
  | cons name names =>
    rw [splitOnP_intercalate rfl (List.cons_ne_nil _ _)]
    intro l hl b hb
    rw [isComma, decide_eq_false_iff_not]
    rintro rfl
    exact h l hl hb

/-- What the loop makes of one entry. -/
theorem parsePart_text {e : Entry} (h : e.Valid) (m : ℕ) (acc : List (Bytes × Bytes) × List Feature) :
    parsePart m acc e.text =
      if e.property?.isSome ∧ acc.1.length = m then .error .tooManyBannerProperties
      else .ok (acc.1 ++ e.property?.toList, e.names.foldl addFeature acc.2) := by
  cases e with
  | property key value =>
    obtain ⟨-, -, hequals, -, hkey, -⟩ := h
    have hsplit : splitOnce equals (key ++ equals :: value) = some (key, value) := splitOnce_eq_some.mpr ⟨hequals, rfl⟩
    rw [text, parsePart, if_neg (by simp), hsplit]
    dsimp only
    rw [if_neg hkey]
    simp [property?, Entry.names]
  | features names =>
    have hequals : equals ∉ ascii "features" := by decide
    have hsplit : splitOnce equals (ascii "features" ++ equals :: [comma].intercalate names) =
        some (ascii "features", [comma].intercalate names) := splitOnce_eq_some.mpr ⟨hequals, rfl⟩
    rw [text, parsePart, if_neg (by simp), hsplit]
    dsimp only
    rw [if_pos rfl, foldl_names names fun name hname => (h name hname).2.1]
    simp [property?, Entry.names]
  | empty => simp [text, parsePart, property?, Entry.names]

/-- **What the loop makes of all entries.** -/
theorem parseParts_text {es : List Entry} (h : ∀ e ∈ es, e.Valid) {m : ℕ} {acc : List (Bytes × Bytes) × List Feature}
    (hacc : acc.1.length ≤ m) :
    (es.map text).foldlM (parsePart m) acc =
      if acc.1.length + (es.filterMap property?).length ≤ m then
        .ok (acc.1 ++ es.filterMap property?, (es.flatMap Entry.names).foldl addFeature acc.2)
      else .error .tooManyBannerProperties := by
  induction es generalizing acc with
  | nil => simp [hacc, Pure.pure, Except.pure]
  | cons e es ih =>
    have hrest : ∀ e ∈ es, e.Valid := fun e he => h e (List.mem_cons_of_mem _ he)
    rw [List.map_cons, List.foldlM_cons, parsePart_text (h e List.mem_cons_self), List.flatMap_cons, List.foldl_append]
    cases hp : e.property? with
    | none =>
      rw [if_neg (by simp), List.filterMap_cons_none hp, Option.toList_none, List.append_nil]
      exact ih hrest hacc
    | some p =>
      rw [List.filterMap_cons_some hp, List.length_cons]
      by_cases hfull : acc.1.length = m
      · rw [if_pos ⟨rfl, hfull⟩, if_neg (by omega)]
        rfl
      · have hlen : (acc.1 ++ [p]).length = acc.1.length + 1 := by rw [List.length_append, List.length_singleton]
        rw [if_neg (fun hh => hfull hh.2), Option.toList_some]
        have hnext := @ih hrest (acc.1 ++ [p], e.names.foldl addFeature acc.2) (by rw [hlen]; omega)
        rw [hlen] at hnext
        refine hnext.trans ?_
        rw [List.append_assoc, List.singleton_append, Nat.add_assoc, Nat.add_comm 1]

end Entry

/-- Something more is new, or was there. -/
theorem eraseDups_concat (l : List Feature) (f : Feature) :
    (l ++ [f]).eraseDups = if f ∈ l then l.eraseDups else l.eraseDups ++ [f] := by
  rw [List.eraseDups_append]
  split_ifs with hmem
  · have hnone : [f].removeAll l = [] := by simp [List.removeAll, hmem]
    rw [hnone, List.eraseDups_nil, List.append_nil]
  · have hone : [f].removeAll l = [f] := by simp [List.removeAll, hmem]
    rw [hone]
    rfl

/-- Features taken in one by one are those of the names, each where it is first named. -/
theorem foldl_addFeature (names : List Bytes) :
    names.foldl DeviceBanner.addFeature [] = (names.filterMap Feature.tryFrom).eraseDups := by
  induction names using List.reverseRecOn with
  | nil => rfl
  | append_singleton names name ih =>
    rw [List.foldl_append, ih, List.foldl_cons, List.foldl_nil, List.filterMap_append]
    unfold DeviceBanner.addFeature
    cases hf : Feature.tryFrom name with
    | none => rw [List.filterMap_cons_none hf, List.filterMap_nil, List.append_nil]
    | some f =>
      rw [List.filterMap_cons_some hf, List.filterMap_nil, eraseDups_concat]
      simp only [List.mem_eraseDups]

namespace Rendering

open DeviceBanner RangedBanner

variable (x : Rendering)

theorem utf8 : validUtf8 x.text = true := by
  rw [text, validUtf8_append x.state_ok.1, validUtf8_ascii (by decide), validUtf8_append x.serial_ok.1,
    validUtf8_ascii (by decide)]
  refine validUtf8_intercalate (by decide) fun l hl => ?_
  obtain ⟨e, he, rfl⟩ := List.mem_map.mp hl
  exact (x.entries_ok e he).utf8

/-- The parts of the payload, up to one that is empty when there are no entries. -/
theorem parts (m : ℕ) :
    (([semicolon].intercalate (x.entries.map Entry.text)).splitOnP isSemicolon).foldlM (parsePart m) ([], []) =
      (x.entries.map Entry.text).foldlM (parsePart m) ([], []) := by
  cases hes : x.entries with
  | nil => rfl
  | cons e es =>
    rw [← hes, splitOnP_intercalate rfl (by rw [hes]; simp)]
    intro l hl
    obtain ⟨e, he, rfl⟩ := List.mem_map.mp hl
    exact (x.entries_ok e he).no_semicolon

theorem parseInner_text (m : ℕ) : parseInner x.text m =
    if x.properties.length ≤ m then
      .ok ⟨x.text, x.state, x.serial, x.properties, (x.names.filterMap Feature.tryFrom).eraseDups⟩
    else .error .tooManyBannerProperties := by
  have h1 : splitOnce colon x.text =
      some (x.state, x.serial ++ colon :: [semicolon].intercalate (x.entries.map Entry.text)) :=
    splitOnce_eq_some.mpr ⟨x.state_ok.2, rfl⟩
  have h2 : splitOnce colon (x.serial ++ colon :: [semicolon].intercalate (x.entries.map Entry.text)) =
      some (x.serial, [semicolon].intercalate (x.entries.map Entry.text)) :=
    splitOnce_eq_some.mpr ⟨x.serial_ok.2, rfl⟩
  rw [parseInner, if_neg (by rw [x.utf8]; decide), h1]
  dsimp only
  rw [h2]
  dsimp only
  rw [x.parts, Entry.parseParts_text x.entries_ok (Nat.zero_le _), foldl_addFeature]
  simp only [List.length_nil, Nat.zero_add, List.nil_append]
  by_cases hfits : x.properties.length ≤ m
  · have hlist : (x.entries.filterMap Entry.property?).length ≤ m := hfits
    rw [if_pos hlist, if_pos hfits]
    rfl
  · have hlist : ¬ (x.entries.filterMap Entry.property?).length ≤ m := hfits
    rw [if_neg hlist, if_neg hfits]

/-- **A banner reads back what it was rendered from.** -/
theorem banner_reads_back (addr m : ℕ) :
    ((∃ b, fromBytes addr x.text m = .ok b) ↔ x.properties.length ≤ m) ∧
    ∀ b, fromBytes addr x.text m = .ok b →
      b.stateStr = some x.state ∧ b.serialStr = some x.serial ∧ b.propertyTexts = some x.properties ∧
      (∀ key, b.property key = some ((x.properties.find? fun p => p.1 = key).map Prod.snd)) ∧
      b.features = (x.names.filterMap Feature.tryFrom).eraseDups := by
  have hviews := fromBytes_views addr x.text m
  rw [x.parseInner_text m] at hviews
  have hutf8 : ∀ p ∈ x.properties, validUtf8 p.1 = true ∧ validUtf8 p.2 = true := by
    intro p hp
    obtain ⟨e, he, hprop⟩ := List.mem_filterMap.mp hp
    have hvalid := x.entries_ok e he
    cases e with
    | property key value =>
      cases hprop
      exact ⟨hvalid.1, hvalid.2.1⟩
    | features names => cases hprop
    | empty => cases hprop
  generalize hread : fromBytes addr x.text m = r at hviews
  by_cases hfits : x.properties.length ≤ m
  · rw [if_pos hfits] at hviews
    cases hviews with
    | @ok b _ hb =>
      refine ⟨⟨fun _ => hfits, fun _ => ⟨b, rfl⟩⟩, ?_⟩
      rintro _ ⟨⟩
      exact ⟨strAt_of_selects hb.state x.state_ok.1, strAt_of_selects hb.serial x.serial_ok.1,
        propertyTexts_of_selects hb hutf8, property_of_selects hb hutf8, hb.features⟩
  · rw [if_neg hfits] at hviews
    cases hviews with
    | error e =>
      refine ⟨⟨?_, fun h => absurd h hfits⟩, ?_⟩
      · rintro ⟨b, h⟩
        cases h
      · rintro b h
        cases h

/-- A key given twice, nothing between two semicolons, and a feature named twice beside one nobody knows. -/
def sample : Rendering where
  state := ascii "device"
  serial := []
  entries := [.property (ascii "a") (ascii "1"), .empty, .features [ascii "cmd", ascii "new", ascii "cmd"],
    .property (ascii "a") (ascii "2")]
  state_ok := by decide +kernel
  serial_ok := by decide
  entries_ok := by decide +kernel

theorem banner_reads_back_repeated :
    (¬ ∃ b, fromBytes 4096 sample.text 1 = .ok b) ∧ ∃ b, fromBytes 4096 sample.text 2 = .ok b ∧
      b.stateStr = some (ascii "device") ∧ b.serialStr = some [] ∧
      b.propertyTexts = some [(ascii "a", ascii "1"), (ascii "a", ascii "2")] ∧
      b.property (ascii "a") = some (some (ascii "1")) ∧ b.features = [.cmd] := by
  obtain ⟨hone, -⟩ := sample.banner_reads_back 4096 1
  obtain ⟨htwo, hread⟩ := sample.banner_reads_back 4096 2
  obtain ⟨b, hb⟩ := htwo.mpr le_rfl
  obtain ⟨hstate, hserial, hproperties, hproperty, hfeatures⟩ := hread b hb
  refine ⟨fun h => absurd (hone.mp h) (by decide), b, hb, hstate, hserial, hproperties, ?_, ?_⟩
  · rw [hproperty]
    decide +kernel
  · rw [hfeatures]
    decide +kernel

end Rendering

end LibAdb
