import Chute.Head.Basic

/-!
# The grammar of the Host field

`_validate_host` trims, filters, splits off the port, lowers and checks labels. What comes out
is the host part of a simple grammar, in lower case.
-/
namespace Chute

/-- An IPv6 literal in brackets, or labels with dots between them and perhaps one more at the end. -/
inductive HostPart (ipv6 : String → Bool) : List Char → Prop
  | literal {text : List Char} (closed : ']' ∉ text) (address : ipv6 (String.ofList text) = true) :
      HostPart ipv6 ('[' :: text ++ [']'])
  | name {labels : List (List Char)} (some_ : labels ≠ [])
      (valid : ∀ label ∈ labels, validLabel (lower (String.ofList label)) = true) :
      HostPart ipv6 (['.'].intercalate labels)
  | rooted {labels : List (List Char)} (some_ : labels ≠ [])
      (valid : ∀ label ∈ labels, validLabel (lower (String.ofList label)) = true) :
      HostPart ipv6 (['.'].intercalate labels ++ ['.'])

inductive PortPart : List Char → Prop
  | absent : PortPart []
  | present {digits : List Char} (some_ : digits ≠ []) (numeric : digits.all Char.isDigit = true)
      (short : digits.length ≤ 5) (bounded : decimal digits ≤ 65535) : PortPart (':' :: digits)

/-- The value is a host with an optional port behind it, with whitespace around them. -/
structure HostField (ipv6 : String → Bool) (v : Bytes) (host : List Char) : Prop where
  printable : ∀ b ∈ stripOws v, 0x21 ≤ b ∧ b ≤ 0x7E
  ported : ∃ port, decodeAscii (stripOws v) = host ++ port ∧ PortPart port
  bare : '@' ∉ host
  part : HostPart ipv6 host

variable {ipv6 : String → Bool} {v : Bytes} {host text : List Char}

/-! ### Characters -/

/-- The characters of a field value that passes the filter. -/
def Printable (text : List Char) : Prop := ∀ c ∈ text, 0x21 ≤ c.toNat ∧ c.toNat ≤ 0x7E

/-- What holds of the printable characters, checked value by value. -/
private theorem printable_table : ∀ n < 0x7F, 0x21 ≤ n →
    ((['@', '[', ']', ':', '.'].all fun mark =>
      decide (lowerChar (Char.ofNat n) = mark ↔ Char.ofNat n = mark)) = true) ∧
    ((0x21 ≤ (lowerChar (Char.ofNat n)).toNat ∧ (lowerChar (Char.ofNat n)).toNat ≤ 0x7E) ∧
      lowerChar (lowerChar (Char.ofNat n)) = lowerChar (Char.ofNat n)) ∧
    (Char.ofNat n).toNat = n ∧ (UInt8.ofNat n).toNat = n ∧ ows (UInt8.ofNat n) = false := by
  decide +kernel

/-- Lowering leaves the punctuation of a host alone, and makes none. -/
theorem lowerChar_eq_iff {c d : Char} (printable : 0x21 ≤ c.toNat ∧ c.toNat ≤ 0x7E)
    (mark : d ∈ ['@', '[', ']', ':', '.']) : lowerChar c = d ↔ c = d := by
  have each := List.all_eq_true.mp (printable_table c.toNat (by omega) printable.1).1 d mark
  rw [Char.ofNat_toNat] at each
  exact of_decide_eq_true each

theorem lowerChar_printable {c : Char} (printable : 0x21 ≤ c.toNat ∧ c.toNat ≤ 0x7E) :
    (0x21 ≤ (lowerChar c).toNat ∧ (lowerChar c).toNat ≤ 0x7E) ∧
      lowerChar (lowerChar c) = lowerChar c := by
  have each := (printable_table c.toNat (by omega) printable.1).2.1
  rwa [Char.ofNat_toNat] at each

/-- The byte of a printable character. -/
theorem byte_printable {c : Char} (printable : 0x21 ≤ c.toNat ∧ c.toNat ≤ 0x7E) :
    (0x21 ≤ UInt8.ofNat c.toNat ∧ UInt8.ofNat c.toNat ≤ 0x7E) ∧
      Char.ofNat (UInt8.ofNat c.toNat).toNat = c ∧ ows (UInt8.ofNat c.toNat) = false := by
  obtain ⟨-, -, -, byte, dense⟩ := printable_table c.toNat (by omega) printable.1
  refine ⟨⟨UInt8.le_iff_toNat_le.mpr ?_, UInt8.le_iff_toNat_le.mpr ?_⟩, ?_, dense⟩
  · rw [byte]
    exact printable.1
  · rw [byte]
    exact printable.2
  · rw [byte, Char.ofNat_toNat]

theorem decodeAscii_printable (printable : ∀ b ∈ v, 0x21 ≤ b ∧ b ≤ 0x7E) : Printable (decodeAscii v) := by
  intro c here
  obtain ⟨b, member, rfl⟩ := List.mem_map.mp here
  have low := UInt8.le_iff_toNat_le.mp (printable b member).1
  have high := UInt8.le_iff_toNat_le.mp (printable b member).2
  obtain ⟨-, -, same, -⟩ := printable_table b.toNat (Nat.lt_succ_of_le high) low
  rw [same]
  exact ⟨low, high⟩

theorem Printable.lower (printable : Printable text) : Printable (text.map lowerChar) := by
  intro c here
  obtain ⟨b, member, rfl⟩ := List.mem_map.mp here
  exact (lowerChar_printable (printable b member)).1

theorem Printable.lower_lower (printable : Printable text) :
    (text.map lowerChar).map lowerChar = text.map lowerChar := by
  rw [List.map_map]
  exact List.map_congr_left fun c here => (lowerChar_printable (printable c here)).2

theorem Printable.mem_lower {d : Char} (printable : Printable text)
    (mark : d ∈ ['@', '[', ']', ':', '.']) : d ∈ text.map lowerChar ↔ d ∈ text := by
  constructor
  · intro here
    obtain ⟨c, member, same⟩ := List.mem_map.mp here
    exact (lowerChar_eq_iff (printable c member) mark).mp same ▸ member
  · exact fun here => List.mem_map.mpr ⟨d, here, (lowerChar_eq_iff (printable d here) mark).mpr rfl⟩

/-- A printable text that is sent as a field value is read back whole. -/
theorem Printable.read_ascii (printable : Printable text) :
    stripOws (ascii (String.ofList text)) = ascii (String.ofList text) ∧
      (∀ b ∈ ascii (String.ofList text), 0x21 ≤ b ∧ b ≤ 0x7E) ∧
        decodeAscii (ascii (String.ofList text)) = text := by
  have bytes : ∀ b ∈ ascii (String.ofList text), (0x21 ≤ b ∧ b ≤ 0x7E) ∧ ows b = false := by
    intro b here
    rw [ascii, String.toList_ofList] at here
    obtain ⟨c, member, rfl⟩ := List.mem_map.mp here
    have byte := byte_printable (printable c member)
    exact ⟨byte.1, byte.2.2⟩
  refine ⟨strip_eq_self fun b here => (bytes b here).2, fun b here => (bytes b here).1, ?_⟩
  rw [ascii, String.toList_ofList, decodeAscii, List.map_map]
  conv_rhs => rw [← List.map_id text]
  exact List.map_congr_left fun c here => (byte_printable (printable c here)).2.1

/-! ### Labels -/

theorem splitOn_lower (printable : Printable text) :
    (text.map lowerChar).splitOn '.' = (text.splitOn '.').map (List.map lowerChar) := by
  induction text with
  | nil => rfl
  | cons c text ih =>
    have same := lowerChar_eq_iff (d := '.') (printable c List.mem_cons_self) (by decide)
    rw [List.map_cons, List.splitOn_cons_eq_if_modifyHead, List.splitOn_cons_eq_if_modifyHead,
      ih fun d here => printable d (List.mem_cons_of_mem _ here)]
    by_cases dot : c = '.'
    · simp only [dot, beq_self_eq_true, if_true, List.map_cons, List.map_nil]
      rfl
    · have lowered : ¬ lowerChar c = '.' := fun dotted => dot (same.mp dotted)
      obtain ⟨first, more, split_⟩ := List.exists_cons_of_ne_nil (List.splitOn_ne_nil '.' text)
      simp only [beq_iff_eq, dot, lowered, if_false, split_, List.map_cons, List.modifyHead_cons]

theorem toList_lower (text : List Char) : (lower (String.ofList text)).toList = text.map lowerChar := by
  rw [lower, String.toList_ofList, String.toList_ofList]

theorem of_validLabel {label : List Char} (valid : validLabel (lower (String.ofList label)) = true) :
    label ≠ [] ∧ ∀ c ∈ label, labelChar (lowerChar c) = true ∨ lowerChar c = '-' := by
  simp only [validLabel, toList_lower, Bool.and_eq_true, List.all_eq_true, Bool.or_eq_true, beq_iff_eq] at valid
  refine ⟨?_, fun c here => valid.1.1.2 _ (List.mem_map_of_mem here)⟩
  rintro rfl
  cases valid.1.2

theorem mark_not_mem {label : List Char} {d : Char}
    (valid : validLabel (lower (String.ofList label)) = true) (mark : d ∈ ['@', '[', ']', ':', '.']) :
    d ∉ label := by
  have none : (['@', '[', ']', ':', '.'].all fun d =>
      !(labelChar (lowerChar d) || lowerChar d == '-')) = true := by decide
  intro here
  have kept := List.all_eq_true.mp none d mark
  rw [Bool.not_eq_true', Bool.or_eq_false_iff] at kept
  rcases (of_validLabel valid).2 d here with char | hyphen
  · exact absurd char (by simp [kept.1])
  · exact absurd kept.2 (by simp [hyphen])

theorem mem_intercalate {labels : List (List Char)} {d : Char} (here : d ∈ ['.'].intercalate labels) :
    d = '.' ∨ ∃ label ∈ labels, d ∈ label := by
  induction labels with
  | nil => cases here
  | cons label labels ih =>
    cases labels with
    | nil => exact Or.inr ⟨label, List.mem_cons_self, by simpa using here⟩
    | cons next labels =>
      rw [List.intercalate_cons_cons, List.mem_append, List.mem_append, List.mem_singleton] at here
      rcases here with (here | dot) | here
      · exact Or.inr ⟨label, List.mem_cons_self, here⟩
      · exact Or.inl dot
      · rcases ih here with dot | ⟨other, member, here⟩
        · exact Or.inl dot
        · exact Or.inr ⟨other, List.mem_cons_of_mem _ member, here⟩

theorem map_intercalate (labels : List (List Char)) :
    (['.'].intercalate labels).map lowerChar = ['.'].intercalate (labels.map (List.map lowerChar)) := by
  induction labels with
  | nil => rfl
  | cons label labels ih =>
    cases labels with
    | nil => rw [List.intercalate_singleton, List.map_singleton, List.intercalate_singleton]
    | cons next labels =>
      rw [List.intercalate_cons_cons, List.map_append, List.map_append, ih]
      exact List.intercalate_cons_cons.symm

/-- The last label ends the name. -/
theorem getLast?_intercalate {labels : List (List Char)} (some_ : labels ≠ [])
    (valid : ∀ label ∈ labels, validLabel (lower (String.ofList label)) = true) :
    ∃ d, (['.'].intercalate labels).getLast? = some d ∧ d ≠ '.' := by
  induction labels with
  | nil => exact absurd rfl some_
  | cons label labels ih =>
    have first := valid label List.mem_cons_self
    cases labels with
    | nil =>
      rw [List.intercalate_singleton]
      refine ⟨label.getLast (of_validLabel first).1, List.getLast?_eq_some_getLast _, fun dot => ?_⟩
      exact mark_not_mem first (d := '.') (by decide) (dot ▸ List.getLast_mem _)
    | cons next labels =>
      obtain ⟨d, last, other⟩ := ih (List.cons_ne_nil _ _) fun label here =>
        valid label (List.mem_cons_of_mem _ here)
      refine ⟨d, ?_, other⟩
      rw [List.intercalate_cons_cons, List.getLast?_append, last]
      rfl

/-! ### The port -/

theorem checkPort_ok_iff {port : List Char} : checkPort port = .ok () ↔ PortPart (':' :: port) := by
  unfold checkPort
  split
  next fine => exact iff_of_true rfl (.present fine.1 fine.2.1 fine.2.2.1 fine.2.2.2)
  next bad =>
    refine iff_of_false nofun fun part => ?_
    cases part with
    | present some_ numeric short bounded => exact bad ⟨some_, numeric, short, bounded⟩

theorem checkPort_map_iff {port name : List Char} :
    (checkPort port).map (fun _ => name) = .ok host ↔ PortPart (':' :: port) ∧ name = host := by
  rw [← checkPort_ok_iff]
  cases checkPort port with
  | error reason => exact iff_of_false nofun fun both => nomatch both.1
  | ok _ => exact ⟨fun same => ⟨rfl, Except.ok.inj same⟩, fun both => both.2 ▸ rfl⟩

theorem colon_not_mem_digits {digits : List Char} (numeric : digits.all Char.isDigit = true) :
    ':' ∉ digits :=
  fun here => absurd (List.all_eq_true.mp numeric ':' here) (by decide)

/-- `_strip_port` splits off a port, behind a literal that the oracle accepts or behind a text
without a colon. -/
theorem stripPort_ok_iff :
    stripPort ipv6 text = .ok host ↔ ∃ port, text = host ++ port ∧ PortPart port ∧
      ((∃ literal, host = '[' :: literal ++ [']'] ∧ ']' ∉ literal ∧
          ipv6 (String.ofList literal) = true) ∨
        text.head? ≠ some '[' ∧ ':' ∉ host ∧ (host = [] → port = [])) := by
  unfold stripPort
  split
  next inner =>
    have bracketed : ∀ port : List Char, (∃ literal, host = '[' :: literal ++ [']'] ∧ ']' ∉ literal ∧
        ipv6 (String.ofList literal) = true) ∨ ('[' :: inner).head? ≠ some '[' ∧ ':' ∉ host ∧
          (host = [] → port = []) → ∃ literal, host = '[' :: literal ++ [']'] ∧ ']' ∉ literal ∧
            ipv6 (String.ofList literal) = true := by
      rintro port (literal | ⟨other, -⟩)
      · exact literal
      · exact absurd rfl other
    cases found : Lines.partition ']' inner with
    | none =>
      refine iff_of_false nofun ?_
      rintro ⟨port, split_, -, form⟩
      obtain ⟨literal, rfl, -⟩ := bracketed port form
      rw [Lines.partition_eq_none_iff] at found
      refine found ((List.cons.inj split_).2 ▸ ?_)
      simp
    | some parts =>
      obtain ⟨literal, rest⟩ := parts
      obtain ⟨rfl, open_⟩ := Lines.partition_eq_some_iff.mp found
      -- the literal ends at the first bracket, whatever the port looks like
      have same : ∀ port, '[' :: (literal ++ ']' :: rest) = host ++ port →
          (∃ literal', host = '[' :: literal' ++ [']'] ∧ ']' ∉ literal' ∧
            ipv6 (String.ofList literal') = true) →
          host = '[' :: literal ++ [']'] ∧ rest = port ∧ ipv6 (String.ofList literal) = true := by
        rintro port split_ ⟨literal', rfl, closed, address⟩
        have again : Lines.partition ']' (literal ++ ']' :: rest) = some (literal', port) :=
          Lines.partition_eq_some_iff.mpr ⟨by simpa using split_, closed⟩
        rw [found] at again
        cases again
        exact ⟨rfl, rfl, address⟩
      have whole : ∀ port, '[' :: (literal ++ ']' :: port) = ('[' :: literal ++ [']']) ++ port := by
        simp
      simp only
      split
      next address =>
        split
        · constructor
          · intro read
            cases read
            exact ⟨[], whole [], .absent, Or.inl ⟨literal, rfl, open_, address⟩⟩
          · rintro ⟨port, split_, -, form⟩
            rw [(same port split_ (bracketed port form)).1]
        next port =>
          rw [checkPort_map_iff]
          constructor
          · rintro ⟨part, rfl⟩
            exact ⟨':' :: port, whole _, part, Or.inl ⟨literal, rfl, open_, address⟩⟩
          · rintro ⟨port', split_, part, form⟩
            obtain ⟨rfl, rfl, -⟩ := same port' split_ (bracketed port' form)
            exact ⟨part, rfl⟩
        next junk none_ =>
          refine iff_of_false nofun ?_
          rintro ⟨port, split_, part, form⟩
          obtain ⟨-, rfl, -⟩ := same port split_ (bracketed port form)
          cases part with
          | absent => exact junk rfl
          | present => exact none_ _ rfl
      next refused =>
        refine iff_of_false nofun ?_
        rintro ⟨port, split_, -, form⟩
        exact refused (same port split_ (bracketed port form)).2.2
  next other =>
    have unbracketed : text.head? ≠ some '[' := by
      cases text with
      | nil => nofun
      | cons c rest =>
        rintro first
        cases first
        exact other rest rfl
    have named : ∀ port, text = host ++ port → (∃ literal, host = '[' :: literal ++ [']'] ∧
        ']' ∉ literal ∧ ipv6 (String.ofList literal) = true) ∨ text.head? ≠ some '[' ∧ ':' ∉ host ∧
          (host = [] → port = []) → ':' ∉ host ∧ (host = [] → port = []) := by
      rintro port split_ (⟨literal, rfl, -⟩ | ⟨-, colonless, portless⟩)
      · exact absurd (by rw [split_]; rfl) unbracketed
      · exact ⟨colonless, portless⟩
    cases found : Lines.rpartition ':' text with
    | none =>
      have colonless := Lines.rpartition_eq_none_iff.mp found
      constructor
      · intro read
        cases read
        exact ⟨[], by simp, .absent, Or.inr ⟨unbracketed, colonless, fun _ => rfl⟩⟩
      · rintro ⟨port, rfl, part, -⟩
        cases part with
        | absent => rw [List.append_nil]
        | present => exact absurd (by simp) colonless
    | some parts =>
      obtain ⟨name, port⟩ := parts
      obtain ⟨rfl, last⟩ := Lines.rpartition_eq_some_iff.mp found
      have same : ∀ port', name ++ ':' :: port = host ++ port' → PortPart port' → ':' ∉ host →
          name = host ∧ ':' :: port = port' := by
        intro port' split_ part colonless
        cases part with
        | absent =>
          rw [List.append_nil] at split_
          exact absurd (by rw [← split_]; simp) colonless
        | present some_ numeric short bounded =>
          have again := Lines.rpartition_eq_some_iff.mpr ⟨split_, colon_not_mem_digits numeric⟩
          rw [found] at again
          cases again
          exact ⟨rfl, rfl⟩
      simp only
      split
      next bad =>
        refine iff_of_false nofun ?_
        rintro ⟨port', split_, part, form⟩
        obtain ⟨colonless, portless⟩ := named port' split_ form
        obtain ⟨rfl, rfl⟩ := same port' split_ part colonless
        rcases bad with empty | colon
        · cases portless empty
        · exact colonless colon
      next fine =>
        rw [not_or] at fine
        rw [checkPort_map_iff]
        constructor
        · rintro ⟨part, rfl⟩
          exact ⟨':' :: port, rfl, part, Or.inr ⟨unbracketed, fine.2, fun empty => absurd empty fine.1⟩⟩
        · rintro ⟨port', split_, part, form⟩
          obtain ⟨colonless, -⟩ := named port' split_ form
          obtain ⟨rfl, rfl⟩ := same port' split_ part colonless
          exact ⟨part, rfl⟩

/-! ### The host -/

/-- A name without the dot at its end. -/
def rootless (host : List Char) : List Char :=
  if host.getLast? = some '.' then host.dropLast else host

theorem rootless_lower (printable : Printable host) :
    rootless (host.map lowerChar) = (rootless host).map lowerChar := by
  have same : (host.map lowerChar).getLast? = some '.' ↔ host.getLast? = some '.' := by
    rw [List.getLast?_map]
    cases last : host.getLast? with
    | none => exact Iff.rfl
    | some c =>
      have member := List.mem_of_getLast? last
      rw [Option.map_some, Option.some.injEq, Option.some.injEq]
      exact lowerChar_eq_iff (printable c member) (by decide)
  unfold rootless
  split
  next dotted => rw [if_pos (same.mp dotted), List.map_dropLast]
  next plain => rw [if_neg (fun dotted => plain (same.mpr dotted))]

/-- The check of the labels is the grammar of names. -/
theorem labels_iff (printable : Printable host) :
    (¬ rootless (host.map lowerChar) = [] ∧
        ∀ part ∈ (rootless (host.map lowerChar)).splitOn '.', validLabel (String.ofList part) = true) ↔
      ∃ labels : List (List Char), labels ≠ [] ∧
        (∀ label ∈ labels, validLabel (lower (String.ofList label)) = true) ∧
          (host = ['.'].intercalate labels ∨ host = ['.'].intercalate labels ++ ['.']) := by
  have lowered : ∀ label : List Char, String.ofList (label.map lowerChar) = lower (String.ofList label) := by
    intro label
    rw [lower, String.toList_ofList]
  have inner : Printable (rootless host) := by
    unfold rootless
    split
    · exact fun c here => printable c (List.dropLast_subset host here)
    · exact printable
  rw [rootless_lower printable, splitOn_lower inner]
  constructor
  · rintro ⟨-, valid⟩
    refine ⟨(rootless host).splitOn '.', List.splitOn_ne_nil _ _, fun label here => ?_, ?_⟩
    · rw [← lowered]
      exact valid _ (List.mem_map_of_mem here)
    · rw [List.intercalate_splitOn, rootless]
      split
      next dotted =>
        obtain ⟨front, rfl⟩ := List.getLast?_eq_some_iff.mp dotted
        exact Or.inr (by rw [List.dropLast_concat])
      · exact Or.inl rfl
  · rintro ⟨labels, some_, valid, form⟩
    obtain ⟨d, last, other⟩ := getLast?_intercalate some_ valid
    have shape : rootless host = ['.'].intercalate labels := by
      unfold rootless
      rcases form with rfl | rfl
      · rw [last, if_neg fun dotted => other (Option.some.inj dotted)]
      · rw [List.getLast?_concat, if_pos rfl, List.dropLast_concat]
    have undotted : ∀ label ∈ labels, '.' ∉ label := fun label here =>
      mark_not_mem (valid label here) (by decide)
    rw [shape, List.splitOn_intercalate '.' undotted some_]
    refine ⟨fun empty => ?_, fun part here => ?_⟩
    · rw [List.map_eq_nil_iff.mp empty] at last
      cases last
    · obtain ⟨label, member, rfl⟩ := List.mem_map.mp here
      rw [lowered]
      exact valid label member

theorem hostPart_iff : HostPart ipv6 host ↔
    (∃ literal, host = '[' :: literal ++ [']'] ∧ ']' ∉ literal ∧ ipv6 (String.ofList literal) = true) ∨
      ∃ labels : List (List Char), labels ≠ [] ∧
        (∀ label ∈ labels, validLabel (lower (String.ofList label)) = true) ∧
          (host = ['.'].intercalate labels ∨ host = ['.'].intercalate labels ++ ['.']) := by
  constructor
  · intro part
    cases part with
    | literal closed address => exact Or.inl ⟨_, rfl, closed, address⟩
    | name some_ valid => exact Or.inr ⟨_, some_, valid, Or.inl rfl⟩
    | rooted some_ valid => exact Or.inr ⟨_, some_, valid, Or.inr rfl⟩
  · rintro (⟨literal, rfl, closed, address⟩ | ⟨labels, some_, valid, rfl | rfl⟩)
    · exact .literal closed address
    · exact .name some_ valid
    · exact .rooted some_ valid

/-- A name holds no mark of a host but the dot. -/
theorem mark_not_mem_name {labels : List (List Char)} {d : Char}
    (valid : ∀ label ∈ labels, validLabel (lower (String.ofList label)) = true)
    (mark : d ∈ ['@', '[', ']', ':']) :
    d ∉ ['.'].intercalate labels ∧ d ∉ ['.'].intercalate labels ++ ['.'] := by
  have dotless : d ≠ '.' := by
    rintro rfl
    exact absurd mark (by decide)
  have marked : d ∈ ['@', '[', ']', ':', '.'] := List.mem_append_left ['.'] mark
  have absent : d ∉ ['.'].intercalate labels := fun here => by
    rcases mem_intercalate here with dot | ⟨label, member, here⟩
    · exact dotless dot
    · exact mark_not_mem (valid label member) marked here
  refine ⟨absent, fun here => ?_⟩
  rcases List.mem_append.mp here with here | here
  · exact absent here
  · exact dotless (List.mem_singleton.mp here)

theorem HostPart.ne_nil (part : HostPart ipv6 host) : host ≠ [] := by
  rcases hostPart_iff.mp part with ⟨literal, rfl, -⟩ | ⟨labels, some_, valid, shape⟩
  · nofun
  · obtain ⟨d, last, -⟩ := getLast?_intercalate some_ valid
    rintro rfl
    rcases shape with shape | shape
    · rw [← shape] at last
      cases last
    · exact absurd shape.symm (List.append_ne_nil_of_right_ne_nil _ (List.cons_ne_nil _ _))

/-- What `_strip_port` hands on is the host of the grammar. -/
theorem HostField.stripPort_eq (field : HostField ipv6 v host) :
    stripPort ipv6 (decodeAscii (stripOws v)) = .ok host := by
  obtain ⟨port, whole, ported⟩ := field.ported
  refine stripPort_ok_iff.mpr ⟨port, whole, ported, ?_⟩
  rcases hostPart_iff.mp field.part with literal | ⟨labels, some_, valid, shape⟩
  · exact Or.inl literal
  · have bracketless := mark_not_mem_name (d := '[') valid (by decide)
    have colonless := mark_not_mem_name (d := ':') valid (by decide)
    have nonempty := field.part.ne_nil
    have absent : '[' ∉ host ∧ ':' ∉ host := by
      rcases shape with rfl | rfl
      · exact ⟨bracketless.1, colonless.1⟩
      · exact ⟨bracketless.2, colonless.2⟩
    refine Or.inr ⟨fun first => ?_, absent.2, fun empty => absurd empty nonempty⟩
    rw [whole, List.head?_append_of_ne_nil _ nonempty] at first
    exact absent.1 (List.mem_of_head? first)

/-- The checks after the port is gone accept the host parts, whatever `_strip_port` let through. -/
theorem checks_ok_iff {result : String} (printable : Printable host)
    (form : (∃ literal, host = '[' :: literal ++ [']'] ∧ ']' ∉ literal ∧
      ipv6 (String.ofList literal) = true) ∨ host.head? ≠ some '[' ∧ ':' ∉ host) :
    (if host.map lowerChar = [] ∨ '@' ∈ host.map lowerChar then Except.error BadRequest.badHost
      else if (host.map lowerChar).head? = some '[' then .ok (String.ofList (host.map lowerChar))
      else if ':' ∈ host.map lowerChar then .error .badHost
      else if rootless (host.map lowerChar) = [] ∨ ((rootless (host.map lowerChar)).splitOn '.').any
          fun part => !validLabel (String.ofList part) then .error .badHost
      else .ok (String.ofList (host.map lowerChar))) = .ok result ↔
      '@' ∉ host ∧ HostPart ipv6 host ∧ result = lower (String.ofList host) := by
  have lowered : String.ofList (host.map lowerChar) = lower (String.ofList host) := by
    rw [lower, String.toList_ofList]
  have commercial := printable.mem_lower (d := '@') (by decide)
  have colon := printable.mem_lower (d := ':') (by decide)
  simp only [commercial, colon, List.map_eq_nil_iff, lowered]
  split
  next bad =>
    refine iff_of_false (by simp) ?_
    rintro ⟨bare, part, -⟩
    exact bad.elim part.ne_nil bare
  next fine =>
    rw [not_or] at fine
    rcases form with ⟨literal, shape, closed, address⟩ | ⟨unbracketed, colonless⟩
    · have first : (host.map lowerChar).head? = some '[' := by
        rw [shape]
        rfl
      rw [if_pos first]
      constructor
      · intro same
        exact ⟨fine.2, shape ▸ .literal closed address, (Except.ok.inj same).symm⟩
      · rintro ⟨-, -, rfl⟩
        rfl
    · have first : (host.map lowerChar).head? ≠ some '[' := by
        cases host with
        | nil => exact absurd rfl fine.1
        | cons c rest =>
          intro bracket
          refine unbracketed (congrArg some ?_)
          exact (lowerChar_eq_iff (d := '[') (printable c List.mem_cons_self) (by decide)).mp
            (Option.some.inj bracket)
      rw [if_neg first, if_neg colonless]
      have named := labels_iff printable
      split
      next bad =>
        refine iff_of_false (by simp) ?_
        rintro ⟨-, part, -⟩
        rcases hostPart_iff.mp part with ⟨literal, rfl, -⟩ | labels
        · exact unbracketed rfl
        · obtain ⟨nonempty, valid⟩ := named.mpr labels
          rcases bad with empty | bad
          · exact nonempty empty
          · obtain ⟨part, here, invalid⟩ := List.any_eq_true.mp bad
            rw [valid part here] at invalid
            cases invalid
      next good =>
        rw [not_or] at good
        have valid : ∀ part ∈ (rootless (host.map lowerChar)).splitOn '.',
            validLabel (String.ofList part) = true := by
          intro part here
          by_contra invalid
          exact good.2 (List.any_eq_true.mpr ⟨part, here, by simpa using invalid⟩)
        constructor
        · intro same
          exact ⟨fine.2, hostPart_iff.mpr (Or.inr (named.mp ⟨good.1, valid⟩)), (Except.ok.inj same).symm⟩
        · rintro ⟨-, -, rfl⟩
          rfl

/-- `_validate_host` accepts the fields of the grammar, and gives the host in lower case. -/
theorem validateHost_ok_iff {result : String} :
    validateHost ipv6 v = .ok result ↔
      ∃ host, HostField ipv6 v host ∧ result = lower (String.ofList host) := by
  have filtered : ((stripOws v).any fun b => b < 0x21 || 0x7E < b) = false ↔
      ∀ b ∈ stripOws v, 0x21 ≤ b ∧ b ≤ 0x7E := by
    simp only [List.any_eq_false, Bool.or_eq_true, decide_eq_true_eq, not_or, UInt8.not_lt]
  by_cases empty : stripOws v = []
  · rw [validateHost, if_pos empty]
    refine iff_of_false nofun ?_
    rintro ⟨host, field, -⟩
    obtain ⟨port, whole, -⟩ := field.ported
    rw [empty] at whole
    exact field.part.ne_nil (List.append_eq_nil_iff.mp whole.symm).1
  · by_cases junk : ((stripOws v).any fun b => b < 0x21 || 0x7E < b) = true
    · simp only [validateHost, empty, junk, if_true, if_false]
      refine iff_of_false nofun ?_
      rintro ⟨host, field, -⟩
      rw [filtered.mpr field.printable] at junk
      cases junk
    · have printable := filtered.mp (Bool.eq_false_of_not_eq_true junk)
      have text := decodeAscii_printable printable
      simp only [validateHost, empty, junk, if_false]
      cases stripped : stripPort ipv6 (decodeAscii (stripOws v)) with
      | error reason =>
        refine iff_of_false nofun ?_
        rintro ⟨host, field, -⟩
        rw [field.stripPort_eq] at stripped
        cases stripped
      | ok host =>
        obtain ⟨port, whole, ported, form⟩ := stripPort_ok_iff.mp stripped
        have inner : Printable host := fun c here => text c (by rw [whole]; exact List.mem_append_left _ here)
        have form' : (∃ literal, host = '[' :: literal ++ [']'] ∧ ']' ∉ literal ∧
            ipv6 (String.ofList literal) = true) ∨ host.head? ≠ some '[' ∧ ':' ∉ host := by
          rcases form with literal | ⟨unbracketed, colonless, portless⟩
          · exact Or.inl literal
          · refine Or.inr ⟨fun first => unbracketed ?_, colonless⟩
            rw [whole, List.head?_append, first]
            rfl
        refine (checks_ok_iff inner form').trans ?_
        constructor
        · rintro ⟨bare, part, same⟩
          exact ⟨host, ⟨printable, ⟨port, whole, ported⟩, bare, part⟩, same⟩
        · rintro ⟨host', field, same⟩
          rw [field.stripPort_eq] at stripped
          cases stripped
          exact ⟨field.bare, field.part, same⟩

/-- The host in lower case is a field by itself. -/
theorem HostField.lower (closed : ∀ literal, ipv6 literal = true → ipv6 (Chute.lower literal) = true)
    (field : HostField ipv6 v host) :
    HostField ipv6 (ascii (Chute.lower (String.ofList host))) (host.map lowerChar) := by
  obtain ⟨port, whole, -⟩ := field.ported
  have printable : Printable host := fun c here =>
    decodeAscii_printable field.printable c (by rw [whole]; exact List.mem_append_left _ here)
  have lowered : ∀ text : List Char, Chute.lower (String.ofList text) = String.ofList (text.map lowerChar) := by
    intro text
    rw [Chute.lower, String.toList_ofList]
  obtain ⟨stripped, bytes, same⟩ := printable.lower.read_ascii
  rw [lowered]
  refine ⟨by rwa [stripped], ⟨[], by rw [stripped, same, List.append_nil], .absent⟩, ?_, ?_⟩
  · rw [printable.mem_lower (by decide)]
    exact field.bare
  · rcases hostPart_iff.mp field.part with ⟨literal, rfl, ended, address⟩ | ⟨labels, some_, valid, shape⟩
    · have inner : Printable literal := fun c here => printable c (by simp [here])
      have part : HostPart ipv6 ('[' :: literal.map lowerChar ++ [']']) := by
        refine .literal ?_ ?_
        · rw [inner.mem_lower (by decide)]
          exact ended
        · rw [← lowered]
          exact closed _ address
      rwa [List.map_append, List.map_cons]
    · refine hostPart_iff.mpr (Or.inr ⟨labels.map (List.map lowerChar), ?_, fun label here => ?_, ?_⟩)
      · exact fun empty => some_ (List.map_eq_nil_iff.mp empty)
      · obtain ⟨label', member, rfl⟩ := List.mem_map.mp here
        rw [← lowered, lower_of_validLabel (valid label' member)]
        exact valid label' member
      · rcases shape with rfl | rfl
        · exact Or.inl (map_intercalate labels)
        · refine Or.inr ?_
          rw [List.map_append, map_intercalate]
          rfl

/-- **`_validate_host` accepts the grammar of Host fields, gives the host in lower case, and takes
it for itself when it is fed back.** -/
theorem validateHost_grammar (closed : ∀ literal, ipv6 literal = true → ipv6 (lower literal) = true)
    (v : Bytes) :
    (∀ result, validateHost ipv6 v = .ok result ↔
      ∃ host, HostField ipv6 v host ∧ result = lower (String.ofList host)) ∧
    ∀ result, validateHost ipv6 v = .ok result →
      (':' ∉ result.toList ∨ ∃ literal, result.toList = '[' :: literal ++ [']'] ∧ ']' ∉ literal) ∧
        validateHost ipv6 (ascii result) = .ok result := by
  refine ⟨fun result => validateHost_ok_iff, fun result accepted => ?_⟩
  obtain ⟨host, field, rfl⟩ := validateHost_ok_iff.mp accepted
  have again := field.lower closed
  have printable : Printable host := by
    obtain ⟨port, whole, -⟩ := field.ported
    exact fun c here => decodeAscii_printable field.printable c (by rw [whole]; exact List.mem_append_left _ here)
  constructor
  · rw [toList_lower]
    rcases hostPart_iff.mp again.part with ⟨literal, shape, ended, -⟩ | ⟨labels, -, valid, shape⟩
    · exact Or.inr ⟨literal, shape, ended⟩
    · have colonless := mark_not_mem_name (d := ':') valid (by decide)
      rcases shape with shape | shape
      · exact Or.inl (shape ▸ colonless.1)
      · exact Or.inl (shape ▸ colonless.2)
  · refine validateHost_ok_iff.mpr ⟨host.map lowerChar, again, ?_⟩
    rw [lower, lower, String.toList_ofList, String.toList_ofList, printable.lower_lower]

theorem validateHost_grammar_of_port :
    validateHost (· == "::1") (ascii " API.example.com:8443") = .ok "api.example.com" ∧
      validateHost (· == "::1") (ascii "api.example.com") = .ok "api.example.com" := by
  have accepted : validateHost (· == "::1") (ascii " API.example.com:8443") = .ok "api.example.com" := by
    decide
  have closed : ∀ literal : String, (literal == "::1") = true → (lower literal == "::1") = true := by
    intro literal same
    rw [eq_of_beq same]
    decide
  exact ⟨accepted, ((validateHost_grammar closed (ascii " API.example.com:8443")).2 _ accepted).2⟩

/-- A literal whose scope holds a bracket is cut at that bracket, and refused. -/
theorem not_validateHost_of_scope : ∃ ipv6 : String → Bool,
    (∀ literal, ipv6 literal = true → ipv6 (lower literal) = true) ∧
      ipv6 "fe80::1%a]b" = true ∧
        validateHost ipv6 (ascii "[fe80::1%a]b]") = .error .badHost := by
  refine ⟨fun literal => literal == "fe80::1%a" || literal == "fe80::1%a]b", ?_, by decide, by decide⟩
  intro literal accepted
  rcases Bool.or_eq_true _ _ ▸ accepted with same | same
  · rw [eq_of_beq same]
    decide
  · rw [eq_of_beq same]
    decide

end Chute
