import Dbgen3.Generator.Dom

/-!
# The grammar of documents

The XSD grammar of the repository as predicates on the nodes of a document.
Comments and processing instructions may stand anywhere. Characters and CDATA
sections stand in mixed and simple content, and as blanks between elements.
-/

namespace Dbgen3.Generator

open Text

/-! ## Simple types -/

/-- `id-name`. -/
def IdName (s : Str) : Prop :=
  (∃ c cs, s = c :: cs ∧ (c.isAlpha ∨ c = '_') ∧ ∀ x ∈ cs, x.isAlphanum ∨ x = '_' ∨ x = '-') ∧
    s.length ≤ 32

/-- A list of items, as it is read: with single blanks between its items. -/
def ListOf (item : Str → Prop) (s : Str) : Prop :=
  ∃ items : List Str, (∀ i ∈ items, item i) ∧ s = joinWith " " items

/-- `id-name-list`. -/
def IdNameList : Str → Prop := ListOf IdName

/-- `xs:integer`. -/
def IsInteger (s : Str) : Prop :=
  ∃ sign digits, s = sign ++ digits ∧ sign ∈ [[], ['+'], ['-']] ∧ digits ≠ [] ∧
    ∀ c ∈ digits, c.isDigit

/-- `integer-list`. -/
def IntegerList : Str → Prop := ListOf IsInteger

/-- `xs:boolean`. -/
def IsBoolean (s : Str) : Prop :=
  s ∈ ["true".toList, "false".toList, "1".toList, "0".toList]

/-- `rdbms_type`. -/
def RdbmsType (s : Str) : Prop := ∃ r : Rdbms, s = r.name

/-! ## Attributes -/

/-- The attributes of a type: all are optional. -/
abbrev AttrDecls := List (Str × (Str → Prop))

/-- Every attribute is declared and has a value of its type. Those with a prefix and `xmlns`
belong to XML and not to the document. -/
structure ValidAttrs (decls : AttrDecls) (attrs : Attrs) : Prop where
  nodup : (attrs.map Prod.fst).Nodup
  values : ∀ a ∈ attrs, a.1 = "xmlns".toList ∨ ':' ∈ a.1 ∨ ∃ d ∈ decls, d.1 = a.1 ∧ d.2 a.2

/-! ## Contents -/

/-- An element among the children. -/
structure Element where
  name : Str
  attrs : Attrs
  children : List Dom

/-- The elements among the children, in order. -/
def elements : List Dom → List Element
  | [] => []
  | .element name attrs children :: rest => ⟨name, attrs, children⟩ :: elements rest
  | _ :: rest => elements rest

/-- A comment or a processing instruction. -/
def Dom.IsMarkup (n : Dom) : Prop := n = .comment ∨ n = .other .processingInstructionNode

/-- Characters that `p` accepts, with or without a CDATA section around them. -/
def Dom.IsChars (p : Char → Prop) (n : Dom) : Prop :=
  ∃ t : Str, (∀ c ∈ t, p c) ∧ (n = .text (.ok t) ∨ n = .cdataSection (.ok t))

/-- The white space of XML. -/
def XmlSpace (c : Char) : Prop := c = ' ' ∨ c = '\t' ∨ c = '\n' ∨ c = '\r'

def Dom.IsElement (n : Dom) : Prop := ∃ name attrs children, n = .element name attrs children

/-- Content of elements only. -/
def ElementContent (children : List Dom) : Prop :=
  ∀ n ∈ children, n.IsElement ∨ n.IsMarkup ∨ n.IsChars XmlSpace

/-- Mixed content. -/
def MixedContent (children : List Dom) : Prop :=
  ∀ n ∈ children, n.IsElement ∨ n.IsMarkup ∨ n.IsChars fun _ => True

/-- A type of elements: what it says of the attributes and the children. -/
abbrev ElementType := Attrs → List Dom → Prop

/-- An element of a sequence, with the bounds of its occurrences. -/
structure Particle where
  name : Str
  type : ElementType
  minOccurs : Nat := 0
  maxOccurs : Option Nat := some 1

/-- The elements are occurrences of the particles in order. -/
def Sequence : List Particle → List Element → Prop
  | [], els => els = []
  | p :: ps, els =>
      ∃ occs rest, els = occs ++ rest ∧ p.minOccurs ≤ occs.length ∧
        (∀ n ∈ p.maxOccurs, occs.length ≤ n) ∧
        (∀ el ∈ occs, el.name = p.name ∧ p.type el.attrs el.children) ∧ Sequence ps rest

/-- Every element of a sequence is one of its particles. -/
theorem Sequence.particle {ps : List Particle} {els : List Element} (h : Sequence ps els)
    {el : Element} (hel : el ∈ els) :
    ∃ p ∈ ps, el.name = p.name ∧ p.type el.attrs el.children := by
  induction ps generalizing els with
  | nil =>
      obtain rfl : els = [] := h
      cases hel
  | cons p ps ih =>
      obtain ⟨occs, rest, rfl, -, -, hoccs, hrest⟩ := h
      rcases List.mem_append.mp hel with hel | hel
      · exact ⟨p, List.mem_cons_self, hoccs el hel⟩
      · obtain ⟨q, hq, hname, htype⟩ := ih hrest hel
        exact ⟨q, List.mem_cons_of_mem _ hq, hname, htype⟩

/-- A particle that need not occur may be left out. -/
theorem Sequence.skip {p : Particle} {ps : List Particle} {els : List Element}
    (h : Sequence ps els) (hmin : p.minOccurs = 0) : Sequence (p :: ps) els :=
  ⟨[], els, rfl, Nat.le_of_eq hmin, fun _ _ => Nat.zero_le _, nofun, h⟩

/-- The last particle occurs as often as there are elements. -/
theorem Sequence.last {p : Particle} {els : List Element} (hmin : p.minOccurs ≤ els.length)
    (hmax : ∀ n ∈ p.maxOccurs, els.length ≤ n)
    (h : ∀ el ∈ els, el.name = p.name ∧ p.type el.attrs el.children) : Sequence [p] els :=
  ⟨els, [], (List.append_nil els).symm, hmin, hmax, h, rfl⟩

theorem mem_elements {el : Element} {nodes : List Dom} :
    el ∈ elements nodes ↔ .element el.name el.attrs el.children ∈ nodes := by
  induction nodes with
  | nil => simp [elements]
  | cons n rest ih =>
      cases n with
      | element name attrs children =>
          simp only [elements, List.mem_cons, ih, Dom.element.injEq]
          constructor
          · rintro (rfl | h)
            · exact .inl ⟨rfl, rfl, rfl⟩
            · exact .inr h
          · rintro (⟨rfl, rfl, rfl⟩ | h)
            · exact .inl rfl
            · exact .inr h
      | text data => simpa [elements] using ih
      | cdataSection data => simpa [elements] using ih
      | comment => simpa [elements] using ih
      | other type => simpa [elements] using ih

/-! ## The types of the grammar -/

/-- `xs:anyType`. -/
def anyType : ElementType := fun _ _ => True

/-- `xs:string`. -/
def stringType : ElementType := fun attrs children =>
  ValidAttrs [] attrs ∧ ∀ n ∈ children, n.IsMarkup ∨ n.IsChars fun _ => True

/-- `buffer_type`. -/
def bufferType : ElementType := fun attrs children =>
  ValidAttrs [("id", IdName), ("columns", IdNameList), ("skip", IsBoolean)] attrs ∧
    ∀ n ∈ children, n.IsMarkup

/-- The type of `sql`. -/
def sqlType : ElementType := fun attrs children =>
  ValidAttrs [("rdbms", RdbmsType)] attrs ∧ MixedContent children ∧
    Sequence [{ name := "prepare", type := stringType }] (elements children)

/-- `query-type`. -/
def queryType : ElementType := fun attrs children =>
  ValidAttrs [("id", IdName), ("allowed", IntegerList)] attrs ∧ ElementContent children ∧
    Sequence [{ name := "qp", type := bufferType }, { name := "qr", type := bufferType },
      { name := "sql", type := sqlType, maxOccurs := none }] (elements children)

/-- `query-set-type`. -/
def querySetType : ElementType := fun attrs children =>
  ValidAttrs [("id", IdName)] attrs ∧ ElementContent children ∧
    Sequence [{ name := "hdr", type := anyType },
      { name := "q", type := queryType, minOccurs := 1, maxOccurs := none }] (elements children)

section

variable {attrs attrs' : Attrs} {children cs : List Dom}

theorem queryType_of_querySetType (h : querySetType attrs children)
    (hq : .element "q" attrs' cs ∈ children) : queryType attrs' cs := by
  have hmem : (⟨"q", attrs', cs⟩ : Element) ∈ elements children := mem_elements.mpr hq
  obtain ⟨p, hp, hname, htype⟩ := h.2.2.particle hmem
  simp only [List.mem_cons, List.not_mem_nil, or_false] at hp
  rcases hp with rfl | rfl
  · have hne : "q".toList = "hdr".toList := hname
    exact absurd hne (by decide)
  · exact htype

/-- The elements of a query are buffers and texts. -/
theorem element_of_queryType {name : Str} (h : queryType attrs children)
    (hel : .element name attrs' cs ∈ children) :
    (name = "qp".toList ∨ name = "qr".toList) ∧ bufferType attrs' cs ∨
      name = "sql".toList ∧ sqlType attrs' cs := by
  have hmem : (⟨name, attrs', cs⟩ : Element) ∈ elements children := mem_elements.mpr hel
  obtain ⟨p, hp, hname, htype⟩ := h.2.2.particle hmem
  simp only [List.mem_cons, List.not_mem_nil, or_false] at hp
  rcases hp with rfl | rfl | rfl
  · exact .inl ⟨.inl hname, htype⟩
  · exact .inl ⟨.inr hname, htype⟩
  · exact .inr ⟨hname, htype⟩

theorem element_of_sqlType {name : Str} (h : sqlType attrs children)
    (hel : .element name attrs' cs ∈ children) :
    name = "prepare".toList ∧ stringType attrs' cs := by
  have hmem : (⟨name, attrs', cs⟩ : Element) ∈ elements children := mem_elements.mpr hel
  obtain ⟨p, hp, hname, htype⟩ := h.2.2.particle hmem
  obtain rfl := List.mem_singleton.mp hp
  exact ⟨hname, htype⟩

end

end Dbgen3.Generator
