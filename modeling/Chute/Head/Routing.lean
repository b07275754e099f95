import Chute.Head.Lenient
import Chute.Head.Host

/-!
# The label in a Host

In host-routed mode a visitor names its tunnel by a label in front of the base domain.
`_label_from_host` takes the two apart, and `_public_url_for` is what puts them together.
-/
namespace Chute

/-- `base_domain` as the constructor keeps it; an empty one counts as unset. -/
def normalizeBaseDomain (baseDomain : Option String) : Option String :=
  match baseDomain.map fun domain =>
      ((lower domain).toList.dropWhile (· == '.')).rdropWhile (· == '.') with
  | none => none
  | some [] => none
  | some kept => some (String.ofList kept)

/-- `_label_from_host` -/
def labelFromHost (baseDomain host : Option String) : Option String :=
  match host, baseDomain with
  | some host, some base =>
    if host = "" then none
    else
      -- more than one dot at the end is refused before
      let host := (lower host).toList.rdropWhile (· == '.')
      let suffix := '.' :: base.toList
      if host = base.toList then none
      else if suffix.isSuffixOf host then
        let label := String.ofList (host.take (host.length - suffix.length))
        if validLabel label then some label else none
      else none
  | _, _ => none

/-- A list of valid labels with dots between them. -/
def DomainName (base : String) : Prop :=
  ∃ labels : List (List Char), labels ≠ [] ∧ (∀ label ∈ labels, validLabel (String.ofList label) = true) ∧
    base.toList = ['.'].intercalate labels

/-- The relay accepts the head in host-routed mode, and the only Host of it is this one, with
an optional port behind it. -/
def Addressed (ipv6 : String → Bool) (head : Bytes) (host : List Char) : Prop :=
  ∃ request fields value, readHead head = .ok (request, fields) ∧ rawHosts fields = [value] ∧
    HostField ipv6 value host

/-- What a Host names: it is in lower case, and the dot of the root does not count. -/
def hostName (host : List Char) : List Char := rootless (host.map lowerChar)

/-- The host part of a URL: what is between its two slashes and the next one. -/
def urlHost (url : String) : List Char := ((url.toList.splitOn '/').drop 2).headD []

variable {ipv6 : String → Bool} {head : Bytes} {host : List Char} {base label : String}

theorem HostField.printable_host {v : Bytes} (field : HostField ipv6 v host) : Printable host := by
  obtain ⟨port, whole, -⟩ := field.ported
  exact fun c here => decodeAscii_printable field.printable c (by rw [whole]; exact List.mem_append_left _ here)

/-- A head is accepted when it is addressed, and its host is kept in lower case. -/
theorem parseRequestHead_addressed {parsed : RequestHead} :
    parseRequestHead ipv6 head true = .ok parsed ↔
      ∃ host, Addressed ipv6 head host ∧ parsed.host = some (lower (String.ofList host)) := by
  rw [parseRequestHead_ok_iff]
  constructor
  · rintro ⟨request, fields, read, ⟨-, unhosted, -⟩ | ⟨value, result, sole, valid, kept⟩⟩
    · cases unhosted
    · obtain ⟨host, field, rfl⟩ := validateHost_ok_iff.mp valid
      exact ⟨host, ⟨request, fields, value, read, sole, field⟩, kept⟩
  · rintro ⟨host, ⟨request, fields, value, read, sole, field⟩, kept⟩
    exact ⟨request, fields, read,
      Or.inr ⟨value, _, sole, validateHost_ok_iff.mpr ⟨host, field, rfl⟩, kept⟩⟩

/-- The host of a head is one. -/
theorem Addressed.unique {host' : List Char} (one : Addressed ipv6 head host)
    (other : Addressed ipv6 head host') : host' = host := by
  obtain ⟨request, fields, value, read, sole, field⟩ := one
  obtain ⟨request', fields', value', read', sole', field'⟩ := other
  rw [read] at read'
  cases read'
  rw [sole] at sole'
  cases sole'
  have stripped := field.stripPort_eq
  rw [field'.stripPort_eq] at stripped
  exact Except.ok.inj stripped

/-! ### Dots at the end -/

theorem rdropWhile_dot {text : List Char} {c : Char} (last : text.getLast? = some c) (other : c ≠ '.') :
    text.rdropWhile (· == '.') = text ∧ rootless text = text := by
  obtain ⟨front, rfl⟩ := List.getLast?_eq_some_iff.mp last
  constructor
  · rw [List.rdropWhile_concat_neg _ _ _ (by simpa using other)]
  · rw [rootless, if_neg]
    rw [List.getLast?_concat]
    exact fun dot => other (Option.some.inj dot)

/-- A name that ends in one dot loses that dot, and a name that ends in none loses nothing. -/
theorem rdropWhile_rooted {text : List Char} {c : Char} (last : text.getLast? = some c) (other : c ≠ '.') :
    (text ++ ['.']).rdropWhile (· == '.') = text ∧ rootless (text ++ ['.']) = text := by
  constructor
  · rw [List.rdropWhile_concat_pos _ _ _ (by rfl)]
    exact (rdropWhile_dot last other).1
  · rw [rootless, List.getLast?_concat, if_pos rfl, List.dropLast_concat]

theorem getLast?_lower {text : List Char} {c : Char} (printable : Printable text)
    (last : text.getLast? = some c) (other : c ≠ '.') :
    ∃ d, (text.map lowerChar).getLast? = some d ∧ d ≠ '.' := by
  refine ⟨lowerChar c, by rw [List.getLast?_map, last, Option.map_some], fun dot => other ?_⟩
  exact (lowerChar_eq_iff (printable c (List.mem_of_getLast? last)) (by decide)).mp dot

/-- `rstrip(".")` takes off what the grammar allows at the end of a host: one dot. -/
theorem rdropWhile_host (printable : Printable host) (part : HostPart ipv6 host) :
    (host.map lowerChar).rdropWhile (· == '.') = hostName host := by
  have plain : ∀ {text : List Char} {c : Char}, Printable text → text.getLast? = some c → c ≠ '.' →
      (text.map lowerChar).rdropWhile (· == '.') = hostName text := by
    intro text c printable last other
    obtain ⟨d, last, other⟩ := getLast?_lower printable last other
    obtain ⟨stripped, same⟩ := rdropWhile_dot last other
    rw [stripped, hostName, same]
  rcases hostPart_iff.mp part with ⟨literal, rfl, -⟩ | ⟨labels, some_, valid, rfl | rfl⟩
  · exact plain printable (List.getLast?_concat ..) (by decide)
  · obtain ⟨c, last, other⟩ := getLast?_intercalate some_ valid
    exact plain printable last other
  · obtain ⟨c, last, other⟩ := getLast?_intercalate some_ valid
    have inner : Printable (['.'].intercalate labels) := fun d here =>
      printable d (List.mem_append_left _ here)
    obtain ⟨d, last, other⟩ := getLast?_lower inner last other
    have dotted : (['.'].intercalate labels ++ ['.']).map lowerChar =
        (['.'].intercalate labels).map lowerChar ++ ['.'] := by
      rw [List.map_append]
      rfl
    obtain ⟨stripped, same⟩ := rdropWhile_rooted last other
    rw [hostName, dotted, stripped, same]

/-! ### The label -/

/-- The label of a host is what stands before the base domain. -/
theorem labelFromHost_eq_some_iff (printable : Printable host) (part : HostPart ipv6 host) :
    labelFromHost (some base) (some (lower (String.ofList host))) = some label ↔
      validLabel label = true ∧ hostName host = label.toList ++ '.' :: base.toList := by
  have nonempty : ¬ lower (String.ofList host) = "" := by
    intro empty
    have none_ := toList_lower host
    rw [empty] at none_
    exact part.ne_nil (List.map_eq_nil_iff.mp none_.symm)
  have kept : (lower (lower (String.ofList host))).toList.rdropWhile (· == '.') = hostName host := by
    rw [lower, String.toList_ofList, toList_lower, printable.lower_lower, rdropWhile_host printable part]
  simp only [labelFromHost, if_neg nonempty, kept, List.isSuffixOf_iff_suffix]
  constructor
  · intro read
    split at read
    · cases read
    · split at read
      next below =>
        obtain ⟨front, whole⟩ := below
        split at read
        next valid =>
          cases read
          refine ⟨valid, ?_⟩
          rw [String.toList_ofList, ← whole]
          simp
        · cases read
      · cases read
  · rintro ⟨valid, whole⟩
    have front : (hostName host).take ((hostName host).length - ('.' :: base.toList).length) = label.toList := by
      rw [whole, List.length_append, Nat.add_sub_cancel, List.take_left]
    have apart : ¬ hostName host = base.toList := by
      intro apex
      have lengths := congrArg List.length (apex.symm.trans whole)
      rw [List.length_append, List.length_cons] at lengths
      omega
    rw [if_neg apart, if_pos ⟨label.toList, whole.symm⟩, front, String.ofList_toList, if_pos valid]

/-! ### Names that the relay gives out -/

theorem printable_of_validLabel (valid : validLabel label = true) : Printable label.toList := by
  simp only [validLabel, Bool.and_eq_true, List.all_eq_true, Bool.or_eq_true, beq_iff_eq] at valid
  intro c here
  rcases valid.1.1.2 c here with char | rfl
  · rw [labelChar_iff] at char
    omega
  · decide

namespace DomainName

/-- A label in front of a domain makes a domain. -/
theorem under (domain : DomainName base) (valid : validLabel label = true) :
    DomainName (label ++ "." ++ base) := by
  obtain ⟨labels, some_, each, shape⟩ := domain
  refine ⟨label.toList :: labels, List.cons_ne_nil _ _, ?_, ?_⟩
  · rw [List.forall_mem_cons, String.ofList_toList]
    exact ⟨valid, each⟩
  · obtain ⟨first, more, rfl⟩ := List.exists_cons_of_ne_nil some_
    rw [String.toList_append, String.toList_append, shape, List.intercalate_cons_cons]
    rfl

/-- The labels as the grammar of hosts asks for them. -/
theorem labels (domain : DomainName base) : ∃ labels : List (List Char), labels ≠ [] ∧
    (∀ label ∈ labels, validLabel (lower (String.ofList label)) = true ∧ label.map lowerChar = label) ∧
      base.toList = ['.'].intercalate labels := by
  obtain ⟨labels, some_, each, shape⟩ := domain
  refine ⟨labels, some_, fun label here => ?_, shape⟩
  have same := lower_of_validLabel (each label here)
  constructor
  · rw [same]
    exact each label here
  · rw [← toList_lower, same, String.toList_ofList]

theorem printable (domain : DomainName base) : Printable base.toList := by
  obtain ⟨labels, some_, each, shape⟩ := domain
  intro c here
  rw [shape] at here
  rcases mem_intercalate here with rfl | ⟨label, member, here⟩
  · decide
  · have printable := printable_of_validLabel (each label member)
    rw [String.toList_ofList] at printable
    exact printable c here

theorem hostPart (domain : DomainName base) : HostPart ipv6 base.toList := by
  obtain ⟨labels, some_, each, shape⟩ := domain.labels
  rw [shape]
  exact .name some_ fun label here => (each label here).1

/-- No mark of a host but the dot is in a domain. -/
theorem mark_not_mem {d : Char} (domain : DomainName base) (mark : d ∈ ['@', '[', ']', ':']) :
    d ∉ base.toList := by
  obtain ⟨labels, some_, each, shape⟩ := domain.labels
  rw [shape]
  exact (mark_not_mem_name (fun label here => (each label here).1) mark).1

theorem slash_not_mem (domain : DomainName base) : '/' ∉ base.toList := by
  obtain ⟨labels, some_, each, shape⟩ := domain
  rw [shape]
  intro here
  rcases mem_intercalate here with dot | ⟨label, member, here⟩
  · cases dot
  · have valid := each label member
    simp only [validLabel, Bool.and_eq_true, List.all_eq_true, Bool.or_eq_true, beq_iff_eq,
      String.toList_ofList] at valid
    rcases valid.1.1.2 '/' here with char | hyphen
    · revert char
      decide
    · cases hyphen

/-- A domain by itself is a Host. -/
theorem hostField (domain : DomainName base) : HostField ipv6 (ascii base) base.toList := by
  obtain ⟨stripped, bytes, same⟩ := domain.printable.read_ascii
  rw [String.ofList_toList] at stripped bytes same
  refine ⟨?_, ⟨[], ?_, .absent⟩, domain.mark_not_mem (by decide), domain.hostPart⟩
  · rwa [stripped]
  · rw [stripped, same, List.append_nil]

/-- A domain ends in a character that is no dot. -/
theorem ends (domain : DomainName base) : ∃ c, base.toList.getLast? = some c ∧ c ≠ '.' := by
  obtain ⟨labels, some_, each, shape⟩ := domain.labels
  rw [shape]
  exact getLast?_intercalate some_ fun label here => (each label here).1

theorem map_lower (domain : DomainName base) : base.toList.map lowerChar = base.toList := by
  obtain ⟨labels, some_, each, shape⟩ := domain.labels
  rw [shape, map_intercalate]
  refine congrArg _ ?_
  conv_rhs => rw [← List.map_id labels]
  exact List.map_congr_left fun label here => (each label here).2

/-- A domain names itself. -/
theorem hostName_eq (domain : DomainName base) : hostName base.toList = base.toList := by
  obtain ⟨c, last, other⟩ := domain.ends
  rw [hostName, domain.map_lower, (rdropWhile_dot last other).2]

end DomainName

theorem urlHost_of_slashes {front : String} {inner : List Char} (opens : front.toList = inner ++ ['/', '/'])
    (unslashed : '/' ∉ inner) {name : String} (domain : DomainName name) :
    urlHost (front ++ name ++ "/") = name.toList := by
  have split_ : (front ++ name ++ "/").toList.splitOn '/' = [inner, [], name.toList, []] := by
    have whole : (front ++ name ++ "/").toList = inner ++ '/' :: ([] ++ '/' :: (name.toList ++ '/' :: [])) := by
      rw [String.toList_append, String.toList_append, opens]
      simp
    rw [whole, List.splitOn_append_cons_self_of_not_mem unslashed,
      List.splitOn_append_cons_self_of_not_mem (List.not_mem_nil),
      List.splitOn_append_cons_self_of_not_mem domain.slash_not_mem, List.splitOn_nil]
  rw [urlHost, split_]
  rfl

end Chute
