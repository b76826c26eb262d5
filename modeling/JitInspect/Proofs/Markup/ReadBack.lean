import JitInspect.Markup.Document
import JitInspect.Proofs.Sequences
import JitInspect.Proofs.Text.Pattern
import Mathlib.Data.List.TakeDrop
import Mathlib.Tactic.Common

/-!
# Documents that are read back

An element without attributes and outside of all namespaces is written as a tag, its text, the elements in
it and another tag (`Markup.Element.written`). When the names are made of letters and no character of the
texts is markup or takes more than a byte (`Markup.Element.isSimple`), the element is read again from what
is written for it (`Markup.ofBytes_written`). Reading goes from open elements to open elements, token after
token, whatever follows (`Markup.Reads`).
-/

namespace JitInspect

namespace Markup

variable {a : Alphabet} {name rest t : Text} {c : Char} {bound : ℕ}

/-! ### Tokens that are read back -/

section Tokens

/-- The text is the name of a tag: it consists of letters. -/
structure IsTagName (name : Text) : Prop where
  ne_nil : name ≠ []
  isAlpha : ∀ c ∈ name, c.isAlpha = true

/-- The character stands for itself in a text and takes one byte. -/
def isOrdinary (c : Char) : Bool := Token.isPlain c && 0x20 ≤ c.toNat && c.toNat < 0x80

/-- Ordinary characters are plain for the tokenizer. -/
theorem isPlain_of_isOrdinary (h : isOrdinary c = true) : Token.isPlain c = true := by
  unfold isOrdinary at h
  simp only [Bool.and_eq_true] at h
  exact h.1.1

theorem span_append {p : Char → Bool} (hall : ∀ c ∈ t, p c = true) (hc : p c = false) :
    (t ++ c :: rest).span p = (t, c :: rest) := by
  rw [List.span_eq_takeWhile_dropWhile, List.takeWhile_append_of_pos hall,
    List.dropWhile_append_of_pos hall, List.takeWhile_cons_of_neg (by simp [hc]),
    List.dropWhile_cons_of_neg (by simp [hc]), List.append_nil]

theorem qualifiedName?_append (h : IsTagName name) :
    a.qualifiedName? (name ++ '>' :: rest) = some (name, '>' :: rest) := by
  obtain ⟨c, cs, rfl⟩ := List.exists_cons_of_ne_nil h.ne_nil
  have hstart : ∀ d ∈ c :: cs, a.isStart d = true := by
    intro d hd
    rw [Alphabet.isStart, h.isAlpha d hd]
    rfl
  have hrest : ∀ d ∈ cs, a.isRest d = true := by
    intro d hd
    rw [Alphabet.isRest, hstart d (List.mem_cons_of_mem _ hd)]
    rfl
  have hend : a.isRest '>' = false := by cases a <;> decide
  have hname : a.name? (c :: cs ++ '>' :: rest) = some (c :: cs, '>' :: rest) := by
    rw [List.cons_append, Alphabet.name?, if_pos (hstart c List.mem_cons_self), span_append hrest hend]
  rw [Alphabet.qualifiedName?, hname]
  rfl

/-- The start of an element is one token. -/
theorem next?_start (h : IsTagName name) :
    Token.next? a bound ('<' :: (name ++ '>' :: rest)) = some (.start name [] false, rest) := by
  have hattributes : attributes? a bound ('>' :: rest) = some ([], '>' :: rest) := by
    cases bound <;> rfl
  have hstart : Token.start? a bound (name ++ '>' :: rest) = some (.start name [] false, rest) := by
    unfold Token.start?
    rw [qualifiedName?_append h]
    simp [hattributes]
  have hfirst : ∀ d cs, d.isAlpha = false → ¬name ++ '>' :: rest = d :: cs := by
    obtain ⟨c, cs, rfl⟩ := List.exists_cons_of_ne_nil h.ne_nil
    intro d ds hd heq
    rw [← (List.cons.inj heq).1, h.isAlpha c List.mem_cons_self] at hd
    cases hd
  rw [Token.next?, hstart]
  · exact fun cs => hfirst '/' cs (by decide)
  · exact fun cs => hfirst '?' cs (by decide)
  · exact fun cs => hfirst '!' _ (by decide)
  · exact fun cs => hfirst '!' cs (by decide)

theorem next?_finish (h : IsTagName name) :
    Token.next? a bound ('<' :: '/' :: (name ++ '>' :: rest)) = some (.finish name, rest) := by
  change Token.finish? a (name ++ '>' :: rest) = _
  unfold Token.finish?
  rw [qualifiedName?_append h]
  rfl

/-- Plain text up to the next bracket is one token. -/
theorem next?_plain (hne : t ≠ []) (h : ∀ c ∈ t, Token.isPlain c = true) :
    Token.next? a bound (t ++ '<' :: rest) = some (.plain t, '<' :: rest) := by
  obtain ⟨c, cs, rfl⟩ := List.exists_cons_of_ne_nil hne
  have hc := h c List.mem_cons_self
  simp only [Token.isPlain, ne_eq, Bool.and_eq_true, decide_not, Bool.not_eq_true',
    decide_eq_false_iff_not] at hc
  obtain ⟨⟨hlt, hamp⟩, hbracket⟩ := hc
  have hcs : ∀ d ∈ cs, Token.isPlain d = true := fun d hd => h d (List.mem_cons_of_mem _ hd)
  rw [List.cons_append, Token.next?, span_append hcs (by decide)]
  all_goals simp [hlt, hamp, hbracket]

end Tokens

namespace Element

/-! ### Simple elements -/

section Simple

mutual

/-- The element as it is written when it has no attributes and is in no namespace. -/
def written : Element → Text
  | .mk n _ t es =>
    '<' :: (n.localName ++ '>' :: (t ++ (writtenAll es ++ '<' :: '/' :: (n.localName ++ ['>']))))

/-- The elements of a list as they are written one behind the other. -/
def writtenAll : List Element → Text
  | [] => []
  | e :: es => e.written ++ writtenAll es

end

mutual

/-- The element and those in it have names of letters and no attributes, are in no namespace, and their texts
are ordinary ones. -/
def isSimple : Element → Bool
  | .mk n as t es =>
    !n.localName.isEmpty && n.localName.all Char.isAlpha && n.space.isNone && as.isEmpty &&
      t.all isOrdinary && areSimple es

/-- All elements of a list are simple. -/
def areSimple : List Element → Bool
  | [] => true
  | e :: es => e.isSimple && areSimple es

end

/-- What a simple element consists of. -/
theorem isSimple_mk {n : QualifiedName} {as : List (QualifiedName × Text)} {es : List Element} :
    (Element.mk n as t es).isSimple = true ↔ IsTagName n.localName ∧ n.space = none ∧ as = [] ∧
      (∀ c ∈ t, isOrdinary c = true) ∧ areSimple es = true := by
  simp only [isSimple, Bool.and_eq_true, Bool.not_eq_true', List.isEmpty_eq_false_iff, List.all_eq_true,
    Option.isNone_iff_eq_none, List.isEmpty_iff]
  constructor
  · rintro ⟨⟨⟨⟨⟨hne, halpha⟩, hspace⟩, has⟩, ht⟩, hes⟩
    exact ⟨⟨hne, halpha⟩, hspace, has, ht, hes⟩
  · rintro ⟨⟨hne, halpha⟩, hspace, has, ht, hes⟩
    exact ⟨⟨⟨⟨⟨hne, halpha⟩, hspace⟩, has⟩, ht⟩, hes⟩

end Simple

end Element

/-! ### Reading simple elements -/

section Reading

variable {length n : ℕ} {replace : Text → OpenElement → Option OpenElement} {s s₁ s₂ : OpenElements}
  {tok : Token} {i : OpenElement} {os : List OpenElement} {u : Text}

/-- The surroundings of a document that declares nothing. -/
def plainSurroundings (documentLength : ℕ) : Surroundings where
  definitions := {}
  lengths := []
  documentLength

/-- In front of the rest of a document the text is read and leads from some open elements to others. -/
def Reads (a : Alphabet) (length : ℕ) (replace : Text → OpenElement → Option OpenElement)
    (s : OpenElements) (t rest : Text) (s₁ : OpenElements) : Prop :=
  ∀ n, (t ++ rest).length ≤ n → ∃ m, rest.length ≤ m ∧
    OpenElements.readWith a (plainSurroundings length) replace n s (t ++ rest) =
      OpenElements.readWith a (plainSurroundings length) replace m s₁ rest

namespace Reads

theorem refl (s : OpenElements) (rest : Text) : Reads a length replace s [] rest s :=
  fun n hn => ⟨n, hn, rfl⟩

theorem trans (h : Reads a length replace s t (u ++ rest) s₁) (h₁ : Reads a length replace s₁ u rest s₂) :
    Reads a length replace s (t ++ u) rest s₂ := by
  intro n hn
  rw [List.append_assoc] at hn ⊢
  obtain ⟨m, hm, hread⟩ := h n hn
  obtain ⟨k, hk, hread₁⟩ := h₁ m hm
  exact ⟨k, hk, hread.trans hread₁⟩

/-- A token is read, unless it is an entity. -/
theorem ofToken (hnext : ∀ n, Token.next? a n (t ++ rest) = some (tok, rest)) (hne : t ≠ [])
    (hnone : tok.expandedLength (plainSurroundings length) a = 0)
    (hafter : OpenElements.afterToken? a {} replace ⟨i, os, 0⟩ tok = some s₁) :
    Reads a length replace ⟨i, os, 0⟩ t rest s₁ := by
  have hwithin : ¬(!Definitions.isWithinMeasure length 0) = true := by
    unfold Definitions.isWithinMeasure Definitions.generousFactor
    simp
    omega
  intro n hn
  obtain ⟨c, cs, rfl⟩ := List.exists_cons_of_ne_nil hne
  rw [List.length_append, List.length_cons] at hn
  obtain ⟨m, rfl⟩ : ∃ m, n = m + 1 := ⟨n - 1, by omega⟩
  refine ⟨m, by omega, ?_⟩
  rw [List.cons_append, OpenElements.readWith, ← List.cons_append, hnext]
  · dsimp only
    rw [hnone]
    refine (if_neg hwithin).trans ?_
    dsimp only [plainSurroundings]
    rw [hafter]
  · exact List.cons_ne_nil _ _

end Reads

/-- The element that the tag of a name opens. -/
def opened (name : Text) : OpenElement where
  written := name
  name := { localName := name }
  attributes := []
  bindings := []

/-- A tag without attributes opens an element of its name. -/
theorem start?_opened (h : IsTagName name) (hbindings : i.bindings = []) :
    i.start? a {} name [] = some (opened name) := by
  have hcolon : Text.splitFirst [':'] name = none := by
    rw [Text.splitFirst_eq_none_iff]
    intro hinfix
    have hmem : ':' ∈ name := hinfix.subset (List.mem_singleton_self _)
    exact absurd (h.isAlpha _ hmem) (by decide)
  unfold OpenElement.start?
  simp [Bindings.extend, Bindings.elementName?, prefixed, hcolon, hbindings, opened]

/-- The element of a tag is not the document. -/
theorem isDocument_opened (h : IsTagName name) : (opened name).isDocument = false :=
  List.isEmpty_eq_false_iff.2 h.ne_nil

/-- The start of an element opens it within the one around it. -/
theorem reads_start (h : IsTagName name) (hbindings : i.bindings = [])
    (hroom : i.isDocument = true → i.children = []) (rest : Text) :
    Reads a length replace ⟨i, os, 0⟩ ('<' :: (name ++ ['>'])) rest ⟨opened name, i :: os, 0⟩ := by
  have hnext (n : ℕ) : Token.next? a n ('<' :: (name ++ ['>']) ++ rest) =
      some (.start name [] false, rest) := by
    rw [List.cons_append, List.append_assoc]
    exact next?_start h
  refine .ofToken hnext (List.cons_ne_nil _ _) rfl ?_
  change OpenElements.start? a {} ⟨i, os, 0⟩ name [] false = _
  unfold OpenElements.start?
  rw [start?_opened h hbindings]
  by_cases hdocument : i.isDocument = true
  · simp [hroom hdocument]
  · simp [hdocument]

/-- Plain text becomes the text of the element that is open. -/
theorem reads_text (h : IsTagName name) (hplain : ∀ c ∈ t, Token.isPlain c = true)
    (hrest : ∃ back, rest = '<' :: back) :
    Reads a length replace ⟨opened name, os, 0⟩ t rest
      ⟨{ opened name with text := t.reverse }, os, 0⟩ := by
  obtain ⟨back, rfl⟩ := hrest
  by_cases hne : t = []
  · rw [hne]
    exact .refl _ _
  · refine .ofToken (fun n => next?_plain hne hplain) hne rfl ?_
    change OpenElements.addText? _ t = _
    unfold OpenElements.addText?
    rw [isDocument_opened h]
    simp [OpenElement.addText, opened]

/-- The end of an element closes it and adds it to the one around it. -/
theorem reads_finish (h : IsTagName i.written) {o : OpenElement}
    (hroom : o.isDocument = true → o.children = []) (rest : Text) :
    Reads a length replace ⟨i, o :: os, 0⟩ ('<' :: '/' :: (i.written ++ ['>'])) rest
      ⟨{ o with children := i.close :: o.children }, os, 0⟩ := by
  have hnext (n : ℕ) : Token.next? a n ('<' :: '/' :: (i.written ++ ['>']) ++ rest) =
      some (.finish i.written, rest) := by
    rw [List.cons_append, List.cons_append, List.append_assoc]
    exact next?_finish h
  have hchild : o.addChild? i.close = some { o with children := i.close :: o.children } := by
    unfold OpenElement.addChild?
    by_cases hdocument : o.isDocument = true
    · simp [hroom hdocument]
    · simp [hdocument]
  refine .ofToken hnext (List.cons_ne_nil _ _) rfl ?_
  change OpenElements.finish? ⟨i, o :: os, 0⟩ i.written = _
  unfold OpenElements.finish?
  dsimp only
  rw [if_pos rfl, hchild]
  rfl

/-- What is written for elements and a tag behind them begins with a bracket. -/
theorem exists_writtenAll_append (es : List Element) (rest : Text) :
    ∃ back, Element.writtenAll es ++ '<' :: rest = '<' :: back := by
  cases es with
  | nil => exact ⟨rest, rfl⟩
  | cons e es =>
    cases e
    exact ⟨_, rfl⟩

mutual

/-- A simple element is read as it was written. -/
theorem reads_written : ∀ e : Element, e.isSimple = true → ∀ {i : OpenElement} {os : List OpenElement},
    i.bindings = [] → (i.isDocument = true → i.children = []) → ∀ rest : Text,
      Reads a length replace ⟨i, os, 0⟩ e.written rest ⟨{ i with children := e :: i.children }, os, 0⟩
  | .mk ⟨space, l⟩ as t es => by
    intro hsimple i os hbindings hroom rest
    obtain ⟨hname, rfl, rfl, ht, hes⟩ := Element.isSimple_mk.1 hsimple
    have hwritten : (Element.mk ⟨none, l⟩ [] t es).written = '<' :: (l ++ ['>']) ++
        (t ++ (Element.writtenAll es ++ '<' :: '/' :: (l ++ ['>']))) := by
      simp [Element.written]
    rw [hwritten]
    refine (reads_start hname hbindings hroom _).trans ?_
    have hplain : ∀ c ∈ t, Token.isPlain c = true := fun c hc => isPlain_of_isOrdinary (ht c hc)
    have hbracket : ∃ back, Element.writtenAll es ++ '<' :: '/' :: (l ++ ['>']) ++ rest = '<' :: back := by
      rw [List.append_assoc]
      exact exists_writtenAll_append es _
    have hopen : OpenElement.isDocument { opened l with text := t.reverse } = false :=
      isDocument_opened hname
    have hclose : OpenElement.close { opened l with text := t.reverse, children := es.reverse ++ [] } =
        .mk { localName := l } [] t es := by
      simp [OpenElement.close, opened]
    refine (reads_text hname hplain hbracket).trans ((reads_writtenAll es hes rfl hopen _).trans ?_)
    rw [← hclose]
    exact reads_finish hname hroom rest

/-- The elements of a list are read one after another into the element around them. -/
theorem reads_writtenAll : ∀ es : List Element, Element.areSimple es = true →
    ∀ {i : OpenElement} {os : List OpenElement}, i.bindings = [] → i.isDocument = false →
      ∀ rest : Text, Reads a length replace ⟨i, os, 0⟩ (Element.writtenAll es) rest
        ⟨{ i with children := es.reverse ++ i.children }, os, 0⟩
  | [] => fun _ _ _ _ _ rest => .refl _ rest
  | e :: es => by
    intro hsimple i os hbindings hopen rest
    rw [Element.areSimple, Bool.and_eq_true] at hsimple
    have hroom : i.isDocument = true → i.children = [] := by
      intro hdocument
      rw [hopen] at hdocument
      cases hdocument
    have hbindings₁ : OpenElement.bindings { i with children := e :: i.children } = [] := hbindings
    have hopen₁ : OpenElement.isDocument { i with children := e :: i.children } = false := hopen
    rw [List.reverse_cons, List.append_assoc, List.singleton_append]
    exact (reads_written e hsimple.1 hbindings hroom _).trans
      (reads_writtenAll es hsimple.2 hbindings₁ hopen₁ rest)

end

end Reading

/-! ### Whole documents -/

section Whole

variable {e : Element}

/-- The character takes one byte and is no control character. -/
def IsOneByte (c : Char) : Prop := 0x20 ≤ c.toNat ∧ c.toNat < 0x80

/-- Letters of the alphabet are one byte. -/
theorem isOneByte_of_isAlpha (h : c.isAlpha = true) : IsOneByte c := by
  unfold Char.isAlpha Char.isUpper Char.isLower at h
  simp only [Bool.or_eq_true, Bool.and_eq_true, decide_eq_true_eq, ge_iff_le,
    UInt32.le_iff_toNat_le] at h
  have hbounds : ((65 ≤ c.toNat ∧ c.toNat ≤ 90) ∨ 97 ≤ c.toNat ∧ c.toNat ≤ 122) := h
  unfold IsOneByte
  omega

theorem isOneByte_of_isOrdinary (h : isOrdinary c = true) : IsOneByte c := by
  unfold isOrdinary at h
  simp only [Bool.and_eq_true, decide_eq_true_eq] at h
  exact ⟨h.1.2, h.2⟩

mutual

theorem isOneByte_of_mem_written : ∀ e : Element, e.isSimple = true → ∀ c ∈ e.written, IsOneByte c
  | .mk n as t es, h => by
    obtain ⟨hname, -, -, ht, hes⟩ := Element.isSimple_mk.1 h
    have hletters : ∀ c ∈ n.localName, IsOneByte c := fun c hc => isOneByte_of_isAlpha (hname.isAlpha c hc)
    have hsigns : IsOneByte '<' ∧ IsOneByte '>' ∧ IsOneByte '/' := by unfold IsOneByte; decide
    unfold Element.written
    simp only [List.forall_mem_cons, List.forall_mem_append]
    exact ⟨hsigns.1, hletters, hsigns.2.1, fun c hc => isOneByte_of_isOrdinary (ht c hc),
      isOneByte_of_mem_writtenAll es hes, hsigns.1, hsigns.2.2, hletters, hsigns.2.1,
      List.forall_mem_nil _⟩

theorem isOneByte_of_mem_writtenAll : ∀ es : List Element, Element.areSimple es = true →
    ∀ c ∈ Element.writtenAll es, IsOneByte c
  | [], _ => List.forall_mem_nil _
  | e :: es, h => by
    rw [Element.areSimple, Bool.and_eq_true] at h
    exact List.forall_mem_append.2 ⟨isOneByte_of_mem_written e h.1, isOneByte_of_mem_writtenAll es h.2⟩

end

/-- A text of such characters is encoded byte by byte. -/
theorem toUtf8_of_oneByte (h : ∀ c ∈ t, IsOneByte c) :
    Text.toUtf8 t = t.map fun c => UInt8.ofNat c.toNat := by
  induction t with
  | nil => rfl
  | cons c t ih =>
    obtain ⟨hc, ht⟩ := List.forall_mem_cons.1 h
    have hbytes : String.utf8EncodeChar c = [UInt8.ofNat c.toNat] := if_pos (Nat.le_of_lt_succ hc.2)
    rw [Text.toUtf8, List.flatMap_cons, hbytes, List.map_cons, ← ih ht]
    rfl

/-- The byte of such a character has its number. -/
theorem toNat_byte (h : IsOneByte c) : (UInt8.ofNat c.toNat).toNat = c.toNat := by
  rw [UInt8.toNat_ofNat']
  exact Nat.mod_eq_of_lt (h.2.trans (by decide))

/-- Characters of one byte are read back from their bytes. -/
theorem ofUtf8?_toUtf8 (h : ∀ c ∈ t, IsOneByte c) : Text.ofUtf8? (Text.toUtf8 t) = some t := by
  have hfold : ∀ (t : Text) (ds : List (Option Char)), (∀ c ∈ t, IsOneByte c) →
      (t.map fun c => UInt8.ofNat c.toNat).foldl Text.Decoder.next ⟨none, ds⟩ =
        ⟨none, (t.map some).reverse ++ ds⟩ := by
    intro t
    induction t with
    | nil => exact fun ds _ => rfl
    | cons c t ih =>
      intro ds h
      obtain ⟨hc, ht⟩ := List.forall_mem_cons.1 h
      have hlow : UInt8.ofNat c.toNat < 0x80 := by
        rw [UInt8.lt_iff_toNat_lt, toNat_byte hc]
        exact hc.2
      have hnext : Text.Decoder.next ⟨none, ds⟩ (UInt8.ofNat c.toNat) = ⟨none, some c :: ds⟩ := by
        change Text.Decoder.start ds _ = _
        rw [Text.Decoder.start, if_pos hlow, toNat_byte hc, Char.ofNat_toNat]
      rw [List.map_cons, List.foldl_cons, hnext, ih _ ht]
      simp
  have hdecode : Text.decode (Text.toUtf8 t) = t.map some := by
    rw [Text.decode, toUtf8_of_oneByte h, hfold t [] h]
    simp [Text.Decoder.finish]
  unfold Text.ofUtf8?
  rw [hdecode]
  simp

theorem unifyNewlines_eq_self (h : ∀ c ∈ t, c ≠ '\r') : Text.unifyNewlines t = t := by
  induction t with
  | nil => rfl
  | cons c t ih =>
    obtain ⟨hc, ht⟩ := List.forall_mem_cons.1 h
    rw [Text.unifyNewlines, if_neg hc, ih ht]
    exact fun _ heq _ => hc heq

/-- A first glance at the bytes of such a text shows the text. -/
theorem glance_toUtf8 (h : ∀ c ∈ t, IsOneByte c) : Encoding.utf8.glance (Text.toUtf8 t) = t := by
  rw [toUtf8_of_oneByte h]
  change (t.map _).map _ = t
  rw [List.map_map, List.map_congr_left (g := id), List.map_id]
  intro c hc
  exact (congrArg Char.ofNat (toNat_byte (h c hc))).trans (Char.ofNat_toNat c)

/-- Behind a bracket comes a byte of the same character, unless it is zero. -/
theorem ofStart_of_ne_zero {b : UInt8} {bs : Bytes} (h : b ≠ 0) :
    Encoding.ofStart (60 :: b :: bs) = (.utf8, 60 :: b :: bs) := by
  unfold Encoding.ofStart
  split <;> simp_all

/-- A written element begins with a bracket and a letter. -/
theorem exists_written_eq (h : e.isSimple = true) :
    ∃ c back, c.isAlpha = true ∧ e.written = '<' :: c :: back := by
  obtain ⟨n, as, t, es⟩ := e
  obtain ⟨hname, -⟩ := Element.isSimple_mk.1 h
  obtain ⟨c, cs, hl⟩ := List.exists_cons_of_ne_nil hname.ne_nil
  rw [Element.written, hl]
  exact ⟨c, _, hname.isAlpha c (hl ▸ List.mem_cons_self), rfl⟩

/-- An element as it is written is read into the document, to which it is added. -/
theorem readInto_written (h : e.isSimple = true) (length : ℕ) :
    OpenElements.readInto (plainSurroundings length) 1 a e.written .document =
      some { OpenElement.document with children := [e] } := by
  have hread (replace : Text → OpenElement → Option OpenElement) :
      OpenElements.readWith a (plainSurroundings length) replace e.written.length ⟨.document, [], 0⟩
        e.written = some ⟨{ OpenElement.document with children := [e] }, [], 0⟩ := by
    have hreads : Reads a length replace ⟨.document, [], 0⟩ e.written []
        ⟨{ OpenElement.document with children := [e] }, [], 0⟩ :=
      reads_written e h rfl (fun _ => rfl) []
    obtain ⟨m, -, hread⟩ := hreads e.written.length (by rw [List.append_nil])
    rw [List.append_nil] at hread
    rw [hread]
    cases m <;> rfl
  unfold OpenElements.readInto
  dsimp only
  rw [hread]

theorem root?_written (h : e.isSimple = true) (length : ℕ) :
    root? a {} length e.written = some e := by
  obtain ⟨c, back, hc, hwritten⟩ := exists_written_eq h
  have hquestion : c ≠ '?' := fun heq => absurd (heq ▸ hc) (by decide)
  have hexclamation : c ≠ '!' := fun heq => absurd (heq ▸ hc) (by decide)
  have hspace : skipSpace ('<' :: c :: back) = '<' :: c :: back := rfl
  have hskip (n : ℕ) : skipRemarks a n e.written = some e.written := by
    cases n with
    | zero => rfl
    | succ n =>
      rw [hwritten, skipRemarks, hspace]
      simp [hquestion, hexclamation]
  have hdoctype : Text.after? "<!DOCTYPE" e.written = none := by
    rw [hwritten]
    simp [Text.after?, hexclamation.symm]
  unfold root?
  rw [hskip, Option.bind_eq_bind, Option.bind_some, hdoctype]
  change (OpenElements.readInto (plainSurroundings length) 1 a e.written .document).bind _ = _
  rw [readInto_written h]
  rfl

/-- A document that is written for a simple element is read as this element. -/
theorem ofBytes_written (h : e.isSimple = true) : Element.ofBytes (Text.toUtf8 e.written) = .ok e := by
  have hbytes := isOneByte_of_mem_written e h
  obtain ⟨c, back, hc, hwritten⟩ := exists_written_eq h
  have hstart : Encoding.ofStart (Text.toUtf8 e.written) = (.utf8, Text.toUtf8 e.written) := by
    rw [toUtf8_of_oneByte hbytes, hwritten]
    refine ofStart_of_ne_zero fun hzero => ?_
    have hnat := congrArg UInt8.toNat hzero
    rw [toNat_byte (isOneByte_of_isAlpha hc)] at hnat
    have hlow := (isOneByte_of_isAlpha hc).1
    rw [hnat] at hlow
    exact absurd hlow (by decide)
  have hheading : Heading.read e.written = some ({}, 0) := by
    have hquestion : '?' ≠ c := fun heq => absurd (heq ▸ hc) (by decide)
    have hxml : Text.after? "<?xml" e.written = none := by
      rw [hwritten]
      simp [Text.after?, hquestion]
    unfold Heading.read
    rw [hxml]
  have hlegal : e.written.all isLegal = true := by
    rw [List.all_eq_true]
    intro c hc
    obtain ⟨hlow, hhigh⟩ := hbytes c hc
    unfold isLegal
    simp only [Bool.or_eq_true, Bool.and_eq_true, decide_eq_true_eq]
    omega
  have hlines : Text.unifyNewlines e.written = e.written := by
    refine unifyNewlines_eq_self fun c hc heq => ?_
    have hlow := (hbytes c hc).1
    rw [heq] at hlow
    exact absurd hlow (by decide)
  unfold Element.ofBytes
  rw [hstart]
  dsimp only
  rw [glance_toUtf8 hbytes, hheading]
  refine bind_eq_ok.2 ⟨.utf8, rfl, ?_⟩
  rw [Nat.zero_mul, List.drop_zero, Encoding.decode, ofUtf8?_toUtf8 hbytes]
  dsimp only
  rw [if_pos hlegal, hlines, root?_written h]

end Whole

end Markup

end JitInspect
