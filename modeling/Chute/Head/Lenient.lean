import Chute.Head.Basic

/-!
# What a lenient parser reads

A head that the relay accepts is forwarded verbatim, so another parser reads it again. Here is
one that is as lenient about line ends, continuation lines and whitespace as HTTP allows.
-/
namespace Chute

open Head

/-- The whitespace of a lenient recipient. -/
def looseSpace (b : UInt8) : Bool := b == sp || b == htab || b == vt || b == ff || b == cr

def looseTrim (v : Bytes) : Bytes := (v.dropWhile looseSpace).rdropWhile looseSpace

/-- A line that starts with a space or a tab continues the line before it. -/
def joinFolds : List Bytes → List Bytes
  | [] => []
  | line :: lines =>
    match joinFolds lines with
    | [] => [line]
    | next :: more => if next.head?.any ows then (line ++ next) :: more else line :: next :: more

/-- The name of a field in lower case, and its value. -/
def looseField (line : Bytes) : Bytes × Bytes :=
  match Lines.partition colon line with
  | some (name, value) => (lowerBytes (looseTrim name), value)
  | none => (lowerBytes (looseTrim line), [])

def looseFields (head : Bytes) : List (Bytes × Bytes) :=
  (joinFolds ((Lines.splitLoose cr lf head).tail.takeWhile (· ≠ []))).map looseField

def looseHosts (head : Bytes) : List Bytes :=
  ((looseFields head).filter fun field => field.1 = ascii "host").map Prod.snd

/-- The words of the first line. -/
def looseWords (head : Bytes) : List Bytes :=
  (((Lines.splitLoose cr lf head).headD []).splitOnP looseSpace).filter (· ≠ [])

/-! ### Tokens -/

theorem tchars_clean : ∀ b ∈ tchars, b ≠ lf ∧ b ≠ colon ∧ looseSpace b = false := by
  decide +kernel

theorem isHttpToken_iff {value : Bytes} :
    isHttpToken value = true ↔ value ≠ [] ∧ ∀ b ∈ value, b ∈ tchars := by
  simp only [isHttpToken, Bool.and_eq_true, Bool.not_eq_true', List.isEmpty_eq_false_iff,
    List.all_eq_true, List.contains_iff_mem, ne_eq]

theorem looseSpace_cr : looseSpace cr = true := rfl

theorem looseSpace_of_ows {b : UInt8} (space : ows b = true) : looseSpace b = true := by
  simp only [ows, Bool.or_eq_true] at space
  simp only [looseSpace, Bool.or_eq_true]
  exact Or.inl (Or.inl (Or.inl space))

variable {name value line : Bytes}

theorem plain_of_token (token : isHttpToken name = true) : Lines.Plain cr lf name := by
  have clean := fun b here => tchars_clean b ((isHttpToken_iff.mp token).2 b here)
  constructor
  · intro here
    exact absurd (clean cr here).2.2 (by rw [looseSpace_cr]; nofun)
  · exact fun here => (clean lf here).1 rfl

theorem colon_not_mem_of_token (token : isHttpToken name = true) : colon ∉ name :=
  fun here => (tchars_clean colon ((isHttpToken_iff.mp token).2 colon here)).2.1 rfl

theorem not_looseSpace_of_token (token : isHttpToken name = true) : ∀ b ∈ name, looseSpace b = false :=
  fun b here => (tchars_clean b ((isHttpToken_iff.mp token).2 b here)).2.2

/-! ### Field lines -/

/-- A field line as it stands in the head. -/
def writeField (field : Bytes × Bytes) : Bytes := field.1 ++ colon :: field.2

theorem partition_writeField {field : Bytes × Bytes} (token : isHttpToken field.1 = true) :
    Lines.partition colon (writeField field) = some field :=
  Lines.partition_eq_some_iff.mpr ⟨rfl, colon_not_mem_of_token token⟩

theorem head_writeField {field : Bytes × Bytes} (token : isHttpToken field.1 = true) :
    writeField field ≠ [] ∧ (writeField field).head?.any ows = false := by
  obtain ⟨name, value⟩ := field
  cases name with
  | nil => exact absurd rfl (isHttpToken_iff.mp token).1
  | cons b name =>
    have clean := not_looseSpace_of_token token b List.mem_cons_self
    refine ⟨nofun, ?_⟩
    by_contra space
    have space : ows b = true := by simpa [writeField] using space
    rw [looseSpace_of_ows space] at clean
    cases clean

theorem parseFields_writeField {fields : List (Bytes × Bytes)} (more : List Bytes)
    (tokens : ∀ field ∈ fields, isHttpToken field.1 = true) :
    parseFields (fields.map writeField ++ [] :: more) = .ok fields := by
  induction fields with
  | nil => rfl
  | cons field fields ih =>
    have token := tokens field List.mem_cons_self
    obtain ⟨some_, unfolded⟩ := head_writeField token
    have stripped : stripOws field.1 = field.1 := strip_eq_self fun b here => by
      by_contra space
      have loose := looseSpace_of_ows (Bool.eq_true_of_not_eq_false space)
      rw [not_looseSpace_of_token token b here] at loose
      cases loose
    rw [List.map_cons, List.cons_append, parseFields, if_neg some_, unfolded, if_neg nofun,
      partition_writeField token]
    simp only [token, stripped, and_self, if_true]
    rw [ih fun field here => tokens field (List.mem_cons_of_mem _ here)]
    rfl

/-- The fields read are the lines up to the blank one. -/
theorem parseFields_ok {lines : List Bytes} {fields : List (Bytes × Bytes)}
    (read : parseFields lines = .ok fields) :
    lines.takeWhile (· ≠ []) = fields.map writeField ∧ ∀ field ∈ fields, isHttpToken field.1 = true := by
  induction lines generalizing fields with
  | nil =>
    cases read
    exact ⟨rfl, nofun⟩
  | cons line lines ih =>
    rw [parseFields] at read
    split at read
    next blank =>
      cases read
      subst blank
      exact ⟨rfl, nofun⟩
    next some_ =>
      split at read
      · cases read
      · split at read
        · cases read
        next name value split_ =>
          split at read
          next token =>
            cases rest : parseFields lines with
            | error reason => rw [rest] at read; cases read
            | ok more =>
              rw [rest] at read
              cases read
              obtain ⟨same, tokens⟩ := ih rest
              constructor
              · rw [List.takeWhile_cons_of_pos (by simpa using some_), same, List.map_cons,
                  (Lines.partition_eq_some_iff.mp split_).1]
                rfl
              · intro field here
                rcases List.mem_cons.mp here with rfl | here
                · exact token.1
                · exact tokens field here
          · cases read

theorem joinFolds_eq_self {lines : List Bytes} (unfolded : ∀ line ∈ lines, line.head?.any ows = false) :
    joinFolds lines = lines := by
  induction lines with
  | nil => rfl
  | cons line lines ih =>
    rw [joinFolds, ih fun line here => unfolded line (List.mem_cons_of_mem _ here)]
    cases lines with
    | nil => rfl
    | cons next more =>
      have first := unfolded next (List.mem_cons_of_mem _ List.mem_cons_self)
      simp only [first, Bool.false_eq_true, if_false]

theorem looseField_writeField {field : Bytes × Bytes} (token : isHttpToken field.1 = true) :
    looseField (writeField field) = (lowerBytes field.1, field.2) := by
  rw [looseField, partition_writeField token]
  exact congrArg (fun name => (lowerBytes name, field.2))
    (strip_eq_self (not_looseSpace_of_token token))

/-! ### Heads -/

variable {head : Bytes} {request : RequestLine} {fields : List (Bytes × Bytes)}

theorem readHead_ok_iff :
    readHead head = .ok (request, fields) ↔ Lines.Plain cr lf (Lines.removePair cr lf head) ∧
      parseRequestLine ((Lines.splitPair cr lf head).headD []) = .ok request ∧
        parseFields (Lines.splitPair cr lf head).tail = .ok fields := by
  by_cases bare : cr ∈ Lines.removePair cr lf head ∨ lf ∈ Lines.removePair cr lf head
  · simp only [readHead, bare, if_true]
    exact iff_of_false nofun fun read => bare.elim read.1.1 read.1.2
  · have plain := not_or.mp bare
    simp only [readHead, bare, if_false]
    cases parseRequestLine ((Lines.splitPair cr lf head).headD []) with
    | error reason => exact iff_of_false nofun fun read => nomatch read.2.1
    | ok first =>
      cases parseFields (Lines.splitPair cr lf head).tail with
      | error reason => exact iff_of_false nofun fun read => nomatch read.2.2
      | ok rest =>
        constructor
        · intro read
          cases read
          exact ⟨plain, rfl, rfl⟩
        · rintro ⟨-, first', rest'⟩
          cases first'
          cases rest'
          rfl

theorem looseFields_of_readHead (read : readHead head = .ok (request, fields)) :
    looseFields head = fields.map fun field => (lowerBytes field.1, field.2) := by
  obtain ⟨plain, -, rest⟩ := readHead_ok_iff.mp read
  obtain ⟨lines, tokens⟩ := parseFields_ok rest
  rw [looseFields, Lines.splitLoose_eq_splitPair plain, lines, joinFolds_eq_self, List.map_map]
  · exact List.map_congr_left fun field here => looseField_writeField (tokens field here)
  · intro line here
    obtain ⟨field, member, rfl⟩ := List.mem_map.mp here
    exact (head_writeField (tokens field member)).2

/-- The fields of the lenient reader are the relay's, so the Host values are the same. -/
theorem looseHosts_of_readHead (read : readHead head = .ok (request, fields)) :
    looseHosts head = rawHosts fields := by
  rw [looseHosts, looseFields_of_readHead read, List.filter_map, List.map_map, rawHosts]
  rfl

/-! ### Heads that are accepted -/

/-- A head as a client writes it. -/
def writeHead (request : RequestLine) (fields : List (Bytes × Bytes)) : Bytes :=
  ((request.method ++ sp :: request.target ++ sp :: request.version) :: fields.map writeField).flatMap
    (· ++ [cr, lf]) ++ [cr, lf]

/-- A request line and fields that the relay has no objection to. -/
structure WellFormedHead (ipv6 : String → Bool) (requireHost : Bool) (request : RequestLine)
    (fields : List (Bytes × Bytes)) : Prop where
  method : isHttpToken request.method = true
  target : request.target = [asterisk] ∨ request.target.head? = some slash
  unspaced : sp ∉ request.target
  plain : Lines.Plain cr lf request.target
  version : request.version = http10 ∨ request.version = http11
  names : ∀ field ∈ fields, isHttpToken field.1 = true
  values : ∀ field ∈ fields, Lines.Plain cr lf field.2
  host : rawHosts fields = [] ∧ requireHost = false ∧ request.version = http10 ∨
    ∃ value host, rawHosts fields = [value] ∧ validateHost ipv6 value = .ok host

variable {ipv6 : String → Bool} {requireHost : Bool}

theorem version_clean {version : Bytes} (known : version = http10 ∨ version = http11) :
    version ≠ [] ∧ ∀ b ∈ version, b ≠ lf ∧ looseSpace b = false := by
  rcases known with rfl | rfl <;> decide +kernel

theorem sp_not_mem {v : Bytes} (clean : ∀ b ∈ v, looseSpace b = false) : sp ∉ v :=
  fun here => absurd (clean sp here) nofun

theorem parseRequestLine_write (method : isHttpToken request.method = true)
    (target : request.target = [asterisk] ∨ request.target.head? = some slash)
    (unspaced : sp ∉ request.target) (version : request.version = http10 ∨ request.version = http11) :
    parseRequestLine (request.method ++ sp :: request.target ++ sp :: request.version) =
      .ok request := by
  have split_ : (request.method ++ sp :: request.target ++ sp :: request.version).splitOn sp =
      [request.method, request.target, request.version] := by
    rw [List.append_assoc, List.cons_append,
      List.splitOn_append_cons_self_of_not_mem (sp_not_mem (not_looseSpace_of_token method)),
      List.splitOn_append_cons_self_of_not_mem unspaced,
      List.splitOn_eq_singleton (sp_not_mem fun b here => ((version_clean version).2 b here).2)]
  have some_ : request.target ≠ [] := by
    rcases target with star | origin
    · rw [star]
      nofun
    · intro empty
      rw [empty] at origin
      cases origin
  simp only [parseRequestLine, split_, method, some_, version, true_and, ne_eq, not_false_eq_true,
    if_true]
  rcases target with star | origin
  · rw [if_pos star]
  · by_cases star : request.target = [asterisk]
    · rw [if_pos star]
    · rw [if_neg star, if_pos origin]

theorem splitPair_flatMap {lines : List Bytes} (rest : Bytes)
    (plain : ∀ line ∈ lines, Lines.Plain cr lf line) :
    Lines.splitPair cr lf (lines.flatMap (· ++ [cr, lf]) ++ rest) =
      lines ++ Lines.splitPair cr lf rest := by
  induction lines with
  | nil => rfl
  | cons line lines ih =>
    have first := plain line List.mem_cons_self
    simp only [List.flatMap_cons, List.append_assoc, List.cons_append, List.nil_append,
      Lines.splitPair_line first]
    rw [ih fun line here => plain line (List.mem_cons_of_mem _ here)]

theorem readHead_writeHead (wellFormed : WellFormedHead ipv6 requireHost request fields) :
    readHead (writeHead request fields) = .ok (request, fields) := by
  have first : Lines.Plain cr lf (request.method ++ sp :: request.target ++ sp :: request.version) := by
    have method := plain_of_token wellFormed.method
    have version := version_clean wellFormed.version
    have plain := wellFormed.plain
    constructor
    · simp only [List.mem_append, List.mem_cons, not_or]
      refine ⟨⟨method.1, by decide, plain.1⟩, by decide, fun here => ?_⟩
      exact absurd (version.2 cr here).2 (by rw [looseSpace_cr]; nofun)
    · simp only [List.mem_append, List.mem_cons, not_or]
      exact ⟨⟨method.2, by decide, plain.2⟩, by decide, fun here => (version.2 lf here).1 rfl⟩
  have others : ∀ line ∈ fields.map writeField, Lines.Plain cr lf line := by
    intro line here
    obtain ⟨field, member, rfl⟩ := List.mem_map.mp here
    have name := plain_of_token (wellFormed.names field member)
    have value := wellFormed.values field member
    constructor
    · simp only [writeField, List.mem_append, List.mem_cons, not_or]
      exact ⟨name.1, by decide, value.1⟩
    · simp only [writeField, List.mem_append, List.mem_cons, not_or]
      exact ⟨name.2, by decide, value.2⟩
  have split_ : Lines.splitPair cr lf (writeHead request fields) =
      (request.method ++ sp :: request.target ++ sp :: request.version) ::
        (fields.map writeField ++ [[], []]) := by
    rw [writeHead, splitPair_flatMap _ (List.forall_mem_cons.mpr ⟨first, others⟩), List.cons_append]
    rfl
  rw [readHead_ok_iff, split_, Lines.plain_removePair_iff, split_]
  refine ⟨?_, ?_, ?_⟩
  · intro line here
    rcases List.mem_cons.mp here with rfl | here
    · exact first
    · rcases List.mem_append.mp here with here | here
      · exact others line here
      · have blank : line = [] := by simpa using here
        rw [blank]
        exact ⟨List.not_mem_nil, List.not_mem_nil⟩
  · exact parseRequestLine_write wellFormed.method wellFormed.target wellFormed.unspaced
      wellFormed.version
  · exact parseFields_writeField _ wellFormed.names

theorem parseRequestHead_ok_iff {parsed : RequestHead} :
    parseRequestHead ipv6 head requireHost = .ok parsed ↔
      ∃ request fields, readHead head = .ok (request, fields) ∧
        (rawHosts fields = [] ∧ requireHost = false ∧ request.version ≠ http11 ∧ parsed.host = none ∨
          ∃ value host, rawHosts fields = [value] ∧ validateHost ipv6 value = .ok host ∧
            parsed.host = some host) := by
  unfold parseRequestHead
  cases readHead head with
  | error reason => exact iff_of_false nofun fun ⟨_, _, read, _⟩ => nomatch read
  | ok read =>
    obtain ⟨request, fields⟩ := read
    constructor
    · intro accepted
      refine ⟨request, fields, rfl, ?_⟩
      simp only [Except.bind] at accepted
      split at accepted
      next none_ =>
        split at accepted
        · cases accepted
        next optional =>
          rw [not_or] at optional
          cases accepted
          exact Or.inl ⟨none_, Bool.eq_false_of_not_eq_true optional.1, optional.2, rfl⟩
      next value one =>
        cases valid : validateHost ipv6 value with
        | error reason => rw [valid] at accepted; cases accepted
        | ok host =>
          rw [valid] at accepted
          cases accepted
          exact Or.inr ⟨value, host, one, valid, rfl⟩
      · cases accepted
    · rintro ⟨request', fields', read, held⟩
      cases read
      obtain ⟨host⟩ := parsed
      rcases held with ⟨none_, optional, old, rfl⟩ | ⟨value, host', one, valid, rfl⟩
      · simp only [Except.bind, none_, optional, old, Bool.false_eq_true, or_self, if_false]
      · simp only [Except.bind, one, valid]
        rfl

/-- **A lenient parser reads the same fields from every head that the relay accepts, and the
relay accepts every well-formed head.** -/
theorem parseRequestHead_read_alike (ipv6 : String → Bool) (requireHost : Bool) :
    (∀ head parsed, parseRequestHead ipv6 head requireHost = .ok parsed →
      Lines.Paired cr lf head ∧
      ∃ request fields, readHead head = .ok (request, fields) ∧
        looseFields head = fields.map (fun field => (lowerBytes field.1, field.2)) ∧
        (looseHosts head = [] ∧ parsed.host = none ∨
          ∃ value host, looseHosts head = [value] ∧ validateHost ipv6 value = .ok host ∧
            parsed.host = some host)) ∧
    ∀ request fields, WellFormedHead ipv6 requireHost request fields →
      ∃ parsed, parseRequestHead ipv6 (writeHead request fields) requireHost = .ok parsed := by
  constructor
  · intro head parsed accepted
    obtain ⟨request, fields, read, hosts⟩ := parseRequestHead_ok_iff.mp accepted
    refine ⟨Lines.paired_of_plain (by decide) (readHead_ok_iff.mp read).1, request, fields, read,
      looseFields_of_readHead read, ?_⟩
    rw [looseHosts_of_readHead read]
    rcases hosts with ⟨none_, -, -, absent⟩ | one
    · exact Or.inl ⟨none_, absent⟩
    · exact Or.inr one
  · intro request fields wellFormed
    have read := readHead_writeHead wellFormed
    rcases wellFormed.host with ⟨none_, optional, old⟩ | ⟨value, host, one, valid⟩
    · refine ⟨⟨none⟩, parseRequestHead_ok_iff.mpr ⟨request, fields, read, Or.inl ⟨none_, optional, ?_, rfl⟩⟩⟩
      rw [old]
      decide
    · exact ⟨⟨some host⟩, parseRequestHead_ok_iff.mpr
        ⟨request, fields, read, Or.inr ⟨value, host, one, valid, rfl⟩⟩⟩

/-- A head with one Host field. -/
def plainHead : Bytes := writeHead ⟨ascii "GET", ascii "/", http11⟩ [(ascii "Host", ascii " api.example.com")]

private theorem plainHead_ok :
    parseRequestHead (fun _ => false) plainHead true = .ok ⟨some "api.example.com"⟩ ∧
      readHead plainHead = .ok (⟨ascii "GET", ascii "/", http11⟩,
        [(ascii "Host", ascii " api.example.com")]) := by
  decide

theorem read_alike_of_plain :
    parseRequestHead (fun _ => false) plainHead true = .ok ⟨some "api.example.com"⟩ ∧
      looseHosts plainHead = [ascii " api.example.com"] := by
  obtain ⟨accepted, known⟩ := plainHead_ok
  obtain ⟨-, request, fields, read, same, hosts⟩ :=
    (parseRequestHead_read_alike (fun _ => false) true).1 plainHead _ accepted
  refine ⟨accepted, ?_⟩
  rw [known] at read
  cases read
  rw [looseHosts, same]
  decide

/-! ### The request line -/

theorem of_mem_splitOnP {p : UInt8 → Bool} {v piece : Bytes} (here : piece ∈ v.splitOnP p) :
    ∀ b ∈ piece, p b = false := by
  induction v generalizing piece with
  | nil =>
    rw [List.splitOnP_nil, List.mem_singleton] at here
    subst here
    nofun
  | cons a v ih =>
    rw [List.splitOnP_cons_eq_if_modifyHead] at here
    split at here
    next separates =>
      rcases List.mem_cons.mp here with rfl | here
      · nofun
      · exact ih here
    next inside =>
      obtain ⟨first, more, split_⟩ := List.exists_cons_of_ne_nil (List.splitOnP_ne_nil p v)
      rw [split_] at here ih
      rcases List.mem_cons.mp here with rfl | here
      · intro b member
        rcases List.mem_cons.mp member with rfl | member
        · exact Bool.eq_false_of_not_eq_true inside
        · exact ih List.mem_cons_self b member
      · exact ih (List.mem_cons_of_mem _ here)

/-- What `_parse_request_head` knows of the first line. -/
theorem parseRequestLine_ok (read : parseRequestLine line = .ok request) :
    line = request.method ++ sp :: request.target ++ sp :: request.version ∧
      isHttpToken request.method = true ∧ request.target ≠ [] ∧ sp ∉ request.target ∧
        (request.version = http10 ∨ request.version = http11) := by
  unfold parseRequestLine at read
  split at read
  next method target version words =>
    split at read
    next fine =>
      have same : request = ⟨method, target, version⟩ := by
        split at read
        · exact (Except.ok.inj read).symm
        · split at read
          · exact (Except.ok.inj read).symm
          · split at read <;> cases read
      subst same
      refine ⟨?_, fine.1, fine.2.1, ?_, fine.2.2⟩
      · rw [← @List.intercalate_splitOn _ line _ _ sp, words]
        simp [List.intercalate_cons_cons]
      · intro here
        have piece : target ∈ line.splitOnP (· == sp) := by
          rw [← List.splitOn_eq_splitOnP, words]
          exact List.mem_cons_of_mem _ List.mem_cons_self
        exact absurd (of_mem_splitOnP piece sp here) nofun
    · cases read
  · cases read

theorem looseSpace_iff {b : UInt8} :
    looseSpace b = true ↔ b = sp ∨ b = htab ∨ b = vt ∨ b = ff ∨ b = cr := by
  simp only [looseSpace, Bool.or_eq_true, beq_iff_eq, or_assoc]

/-- **A lenient parser takes the same three words from the first line, and the target holds no
whitespace, exactly when the line holds no HTAB, VT or FF.** -/
theorem looseWords_iff {parsed : RequestHead}
    (accepted : parseRequestHead ipv6 head requireHost = .ok parsed) :
    ∃ request fields, readHead head = .ok (request, fields) ∧
      (looseWords head = [request.method, request.target, request.version] ∧
          (∀ b ∈ request.target, looseSpace b = false) ↔
        ∀ b ∈ (Lines.splitPair cr lf head).headD [], b ≠ htab ∧ b ≠ vt ∧ b ≠ ff) := by
  obtain ⟨request, fields, read, -⟩ := parseRequestHead_ok_iff.mp accepted
  refine ⟨request, fields, read, ?_⟩
  obtain ⟨plain, first, -⟩ := readHead_ok_iff.mp read
  rw [looseWords, Lines.splitLoose_eq_splitPair plain]
  generalize shown : (Lines.splitPair cr lf head).headD [] = line at first
  have unbroken : cr ∉ line := by
    obtain ⟨l, more, split_⟩ := List.exists_cons_of_ne_nil
      (Lines.splitPair_ne_nil (r := cr) (n := lf) head)
    rw [split_] at shown
    rw [← show l = line from shown]
    exact (Lines.plain_removePair_iff.mp plain l (by rw [split_]; exact List.mem_cons_self)).1
  obtain ⟨rfl, method, some_, unspaced, version⟩ := parseRequestLine_ok first
  have clean := not_looseSpace_of_token method
  have version_ := fun b here => ((version_clean version).2 b here).2
  -- the separators of the relay are separators for the lenient reader too
  have words : ((request.method ++ sp :: request.target ++ sp :: request.version).splitOnP
      looseSpace).filter (· ≠ []) =
        request.method :: ((request.target.splitOnP looseSpace).filter (· ≠ []) ++ [request.version]) := by
    rw [List.append_assoc, List.cons_append,
      List.splitOnP_append_cons_of_forall_mem clean sp rfl, List.splitOnP_append_cons _ _ rfl,
      List.splitOnP_eq_singleton version_,
      List.filter_cons_of_pos (by simpa using (isHttpToken_iff.mp method).1), List.filter_append,
      List.filter_cons_of_pos (by simpa using (version_clean version).1), List.filter_nil]
  constructor
  · rintro ⟨-, targetClean⟩ b here
    have dense : looseSpace b = false ∨ b = sp := by
      simp only [List.mem_append, List.mem_cons] at here
      rcases here with (here | rfl | here) | rfl | here
      · exact Or.inl (clean b here)
      · exact Or.inr rfl
      · exact Or.inl (targetClean b here)
      · exact Or.inr rfl
      · exact Or.inl (version_ b here)
    rcases dense with dense | rfl
    · refine ⟨?_, ?_, ?_⟩ <;> rintro rfl <;> cases dense
    · decide
  · intro none_
    have dense : ∀ b ∈ request.target, looseSpace b = false := by
      intro b here
      have member : b ∈ request.method ++ sp :: request.target ++ sp :: request.version := by
        simp only [List.mem_append, List.mem_cons]
        exact Or.inl (Or.inr (Or.inr here))
      by_contra space
      rcases looseSpace_iff.mp (Bool.eq_true_of_not_eq_false space) with same | same | same | same | same
      · exact unspaced (same ▸ here)
      · exact (none_ b member).1 same
      · exact (none_ b member).2.1 same
      · exact (none_ b member).2.2 same
      · exact unbroken (same ▸ member)
    refine ⟨?_, dense⟩
    rw [words, List.splitOnP_eq_singleton dense, List.filter_cons_of_pos (by simpa using some_)]
    rfl

theorem looseWords_of_plain :
    looseWords plainHead = [ascii "GET", ascii "/", http11] := by
  obtain ⟨accepted, known⟩ := plainHead_ok
  obtain ⟨request, fields, read, alike⟩ := looseWords_iff accepted
  rw [known] at read
  cases read
  exact (alike.mpr (by decide +kernel)).1

/-- A tab in the target is one more separator for a lenient parser. -/
theorem not_looseWords_of_tab :
    let head := writeHead ⟨ascii "GET", ascii "/a\tb", http11⟩ [(ascii "Host", ascii "api.example.com")]
    parseRequestHead (fun _ => false) head true = .ok ⟨some "api.example.com"⟩ ∧
      looseWords head = [ascii "GET", ascii "/a", ascii "b", http11] := by
  decide

end Chute
