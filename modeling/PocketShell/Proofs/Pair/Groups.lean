import PocketShell.Pair
import PocketShell.Proofs.Token.Delimiters

/-!
# Groups of tokens

`Pair.scan` reads the contents of tokens in groups from the right end of a line. The same can be
done with the tokens themselves: a `Pair.Group` keeps the two or three tokens that one entry of the
result comes from, so an entry can be traced back into the line.

* `Pair.groups` — the groups of a line, from left to right;
* `Pair.exists_append_tokens` — one after the other they are the tokens of the line, except perhaps
  for a first one that is left over;
* `Pair.parse_eq_map_entry`, `Pair.parse_of_short` — the entries of a line are those of its groups,
  unless the line is too short to have any.

Every pair has a **sign** in its group: the token that reads `=` and stands behind the key. Reading
looks at the content of that token and not at its kind. So the sign is a delimiter, or the pair is
**forged**: its sign is an `=` that was quoted or escaped (`Pair.signs_of_parse`). One such `=` is
enough to make a pair in a line without any delimiter (`Pair.parse_disguised`).
-/

namespace PocketShell.Pair

/-- **Groups** of tokens that are read together. -/
inductive Group where
  | whole (key sign value : Token)
  /-- A key and its sign, as if an empty value stood behind them. -/
  | noValue (key sign : Token)
  /-- The first two tokens of a line, as if an empty key stood before them. -/
  | noKey (sign value : Token)

namespace Group

def tokens : Group → List Token
  | whole key sign value => [key, sign, value]
  | noValue key sign => [key, sign]
  | noKey sign value => [sign, value]

/-- The token that must be an `=`. -/
def sign : Group → Token
  | whole _ sign _ | noValue _ sign | noKey sign _ => sign

def key : Group → String
  | whole key _ _ | noValue key _ => key.content
  | noKey _ _ => ""

def value : Group → String
  | whole _ _ value | noKey _ value => value.content
  | noValue _ _ => ""

/-- What a group is read as. -/
def entry (group : Group) : Except Error Pair :=
  ofParts group.key group.sign.content group.value

/-- The pair that a group makes, if it is not malformed. -/
def pair? (group : Group) : Option Pair :=
  group.entry.toOption

end Group

/-- **The groups of some tokens.** Both are given from the right end of the line. -/
def groupsFrom : List Token → List Group
  | last :: middle :: first :: rest =>
    if last.content = "=" ∧ middle.content ≠ "=" then
      .noValue middle last :: groupsFrom (first :: rest)
    else .whole first middle last :: groupsFrom rest
  | [last, middle] =>
    if last.content = "=" ∧ middle.content ≠ "=" then [.noValue middle last]
    else [.noKey middle last]
  | _ => []

/-- The tokens of a line that are not blank. -/
def significant (line : String) : List Token :=
  ((Scanner.new ['=']).append line).finish.1.filter fun token => !token.isBlank

/-- **The groups of a line,** from left to right. -/
def groups (line : String) : List Group :=
  (groupsFrom (significant line).reverse).reverse

/-- The pairs of a line, without what is malformed. -/
def pairs (line : String) : List Pair :=
  (parse line).filterMap Except.toOption

/-- The `=` of a line that are neither quoted nor escaped. -/
def bareSigns (line : String) : List Char :=
  Scanner.bare ['='] false false line.toList

/-- **Disguised signs.** Tokens that read `=` and are no delimiters. -/
def disguised (line : String) : List Token :=
  (significant line).filter fun token => token.content = "=" ∧ token.isDelimiter = false

/-- **Forged pairs.** The groups that make a pair and whose sign is no delimiter. -/
def forged (line : String) : List Group :=
  (groups line).filter fun group => group.pair?.isSome ∧ group.sign.isDelimiter = false

/-! ### Groups and entries -/

/-- Reading contents is reading groups. -/
theorem scan_map_content (tokens : List Token) :
    scan (tokens.map Token.content) = (groupsFrom tokens).map Group.entry := by
  fun_induction groupsFrom tokens with
  | case1 last middle first rest h_empty ih =>
    rw [List.map_cons, List.map_cons, List.map_cons, scan, if_pos h_empty, ← List.map_cons, ih]
    rfl
  | case2 last middle first rest h_whole ih =>
    rw [List.map_cons, List.map_cons, List.map_cons, scan, if_neg h_whole, ih]
    rfl
  | case3 last middle h_empty =>
    rw [List.map_cons, List.map_cons, List.map_nil, scan, if_pos h_empty]
    rfl
  | case4 last middle h_front =>
    rw [List.map_cons, List.map_cons, List.map_nil, scan, if_neg h_front]
    rfl
  | case5 tokens h_three h_two =>
    -- fewer than two tokens are no group
    match tokens with
    | [] => rfl
    | [_] => rfl
    | [last, middle] => exact absurd rfl (h_two last middle)
    | last :: middle :: first :: rest => exact absurd rfl (h_three last middle first rest)

/-- A group more covers its own tokens. -/
theorem exists_append_cons (group : Group) {groups : List Group} {tokens : List Token}
    (h : ∃ left, left.length ≤ 1 ∧
      left ++ groups.reverse.flatMap Group.tokens = tokens.reverse) :
    ∃ left, left.length ≤ 1 ∧
      left ++ (group :: groups).reverse.flatMap Group.tokens =
        (group.tokens.reverse ++ tokens).reverse := by
  obtain ⟨left, h_left, h_rest⟩ := h
  refine ⟨left, h_left, ?_⟩
  rw [List.reverse_cons, List.flatMap_append, List.flatMap_singleton, ← List.append_assoc, h_rest,
    List.reverse_append, List.reverse_reverse]

/-- **The groups cover the tokens,** except perhaps for the first one. -/
theorem exists_append_groupsFrom (tokens : List Token) :
    ∃ left, left.length ≤ 1 ∧
      left ++ (groupsFrom tokens).reverse.flatMap Group.tokens = tokens.reverse := by
  fun_induction groupsFrom tokens with
  | case1 last middle first rest _ ih => exact exists_append_cons (.noValue middle last) ih
  | case2 last middle first rest _ ih => exact exists_append_cons (.whole first middle last) ih
  | case3 last middle _ => exact ⟨[], Nat.zero_le 1, rfl⟩
  | case4 last middle _ => exact ⟨[], Nat.zero_le 1, rfl⟩
  | case5 tokens h_three h_two =>
    match tokens with
    | [] => exact ⟨[], Nat.zero_le 1, rfl⟩
    | [only] => exact ⟨[only], Nat.le_refl 1, rfl⟩
    | [last, middle] => exact absurd rfl (h_two last middle)
    | last :: middle :: first :: rest => exact absurd rfl (h_three last middle first rest)

theorem exists_append_tokens (line : String) :
    ∃ left, left.length ≤ 1 ∧ left ++ (groups line).flatMap Group.tokens = significant line := by
  have h_cover := exists_append_groupsFrom (significant line).reverse
  rwa [List.reverse_reverse] at h_cover

/-- **The entries of a line** are those of its groups. -/
theorem parse_eq_map_entry {line : String} (h : 2 ≤ (significant line).length) :
    parse line = (groups line).map Group.entry := by
  have h_contents : contents line = (significant line).map Token.content := rfl
  rw [parse, h_contents, groups]
  generalize significant line = tokens at h ⊢
  obtain ⟨first, second, rest, rfl⟩ : ∃ first second rest, tokens = first :: second :: rest := by
    match tokens, h with
    | first :: second :: rest, _ => exact ⟨first, second, rest, rfl⟩
  show (scan ((first :: second :: rest).map Token.content).reverse).reverse = _
  rw [← List.map_reverse, scan_map_content, ← List.map_reverse]

/-- A line of fewer than two tokens has no groups; its one entry reports what there is. -/
theorem parse_of_short {line : String} (h : (significant line).length < 2) :
    groups line = [] ∧
      parse line =
        [.error (.malformedPair (String.join ((significant line).map Token.content)))] := by
  have h_contents : contents line = (significant line).map Token.content := rfl
  rw [parse, h_contents, groups]
  generalize significant line = tokens at h ⊢
  match tokens, h with
  | [], _ => exact ⟨rfl, rfl⟩
  | [only], _ => exact ⟨rfl, by simp [String.join]⟩

/-- **The pairs of a line** are those that its groups make. -/
theorem pairs_eq (line : String) : pairs line = (groups line).filterMap Group.pair? := by
  unfold pairs
  rcases Nat.lt_or_ge (significant line).length 2 with h_short | h_long
  · obtain ⟨h_groups, h_parse⟩ := parse_of_short h_short
    rw [h_groups, h_parse]
    rfl
  · rw [parse_eq_map_entry h_long, List.filterMap_map]
    rfl

/-- An entry is a pair or reports a malformed one. -/
theorem ok_or_malformed_of_mem_parse {line : String} {entry : Except Error Pair}
    (h : entry ∈ parse line) :
    (∃ pair, entry = .ok pair) ∨ ∃ text, entry = .error (.malformedPair text) := by
  rcases Nat.lt_or_ge (significant line).length 2 with h_short | h_long
  · rw [(parse_of_short h_short).2, List.mem_singleton] at h
    exact .inr ⟨_, h⟩
  · rw [parse_eq_map_entry h_long] at h
    obtain ⟨group, -, rfl⟩ := List.mem_map.1 h
    unfold Group.entry ofParts
    split
    · exact .inr ⟨_, rfl⟩
    · exact .inl ⟨_, rfl⟩

/-! ### Signs -/

/-- **A pair stands around its sign.** -/
theorem Group.pair?_eq_some_iff {group : Group} {pair : Pair} :
    group.pair? = some pair ↔
      group.key ≠ "" ∧ group.sign.content = "=" ∧ pair = ⟨group.key, group.value⟩ := by
  unfold pair? entry ofParts
  by_cases h_key : group.key = ""
  · simp [h_key, Except.toOption]
  · by_cases h_sign : group.sign.content = "="
    · simp [h_key, h_sign, Except.toOption, eq_comm]
    · simp [h_sign, Except.toOption]

theorem Group.sign_mem_tokens (group : Group) : group.sign ∈ group.tokens := by
  cases group with
  | whole key sign value => exact List.mem_cons_of_mem _ List.mem_cons_self
  | noValue key sign => exact List.mem_cons_of_mem _ List.mem_cons_self
  | noKey sign value => exact List.mem_cons_self

/-- Every group has a sign of its own. -/
theorem map_sign_sublist (groups : List Group) :
    (groups.map Group.sign).Sublist (groups.flatMap Group.tokens) := by
  induction groups with
  | nil => exact .slnil
  | cons group groups ih =>
    rw [List.map_cons, List.flatMap_cons, ← List.singleton_append]
    exact (List.singleton_sublist.2 group.sign_mem_tokens).append ih

/-- The delimiters of a line are the `=` that stand bare in it. -/
theorem delimiters_significant (line : String) :
    ((significant line).filter Token.isDelimiter).map Token.content =
      (bareSigns line).map String.singleton := by
  rw [bareSigns, ← Scanner.delimiters_finish, significant, List.filter_filter]
  refine congrArg (List.map Token.content) (List.filter_congr fun token _ => ?_)
  cases h_kind : token.kind with
  | delimiter => simp [Token.isDelimiter, Token.isBlank, h_kind]
  | text | blank | doubleQuoted | singleQuoted => simp [Token.isDelimiter, h_kind]

theorem sign_mem_significant {line : String} {group : Group} (h : group ∈ groups line) :
    group.sign ∈ significant line := by
  obtain ⟨left, -, h_tokens⟩ := exists_append_tokens line
  rw [← h_tokens]
  exact List.mem_append_right _ (List.mem_flatMap.2 ⟨group, h, group.sign_mem_tokens⟩)

/-- A pair is forged around a token in disguise. -/
theorem sign_of_mem_forged {line : String} {group : Group} (h : group ∈ forged line) :
    group.sign ∈ disguised line := by
  obtain ⟨h_mem, h_forged⟩ := List.mem_filter.1 h
  obtain ⟨h_some, h_kind⟩ := of_decide_eq_true h_forged
  obtain ⟨pair, h_pair⟩ := Option.isSome_iff_exists.1 h_some
  obtain ⟨-, h_sign, -⟩ := Group.pair?_eq_some_iff.1 h_pair
  exact List.mem_filter.2 ⟨sign_mem_significant h_mem, decide_eq_true ⟨h_sign, h_kind⟩⟩

/-- The sign of a pair is a delimiter, unless the pair is forged. -/
theorem sign_of_pair? {line : String} {group : Group} {pair : Pair} (h_mem : group ∈ groups line)
    (h : group.pair? = some pair) : group.sign = ⟨.delimiter, "="⟩ ∨ group ∈ forged line := by
  obtain ⟨-, h_sign, -⟩ := Group.pair?_eq_some_iff.1 h
  cases h_delimiter : group.sign.isDelimiter with
  | true =>
    have h_kind : group.sign.kind = .delimiter := beq_iff_eq.1 h_delimiter
    rw [← h_kind, ← h_sign]
    exact .inl rfl
  | false =>
    have h_some : group.pair?.isSome = true := by rw [h, Option.isSome_some]
    exact .inr (List.mem_filter.2 ⟨h_mem, decide_eq_true ⟨h_some, h_delimiter⟩⟩)

/-- **There are no more pairs than delimiters,** up to the forged ones. -/
theorem length_pairs_le (line : String) :
    (pairs line).length ≤ (bareSigns line).length + (forged line).length := by
  obtain ⟨left, -, h_tokens⟩ := exists_append_tokens line
  let made (group : Group) : Bool := group.pair?.isSome
  let real : Group → Bool := Token.isDelimiter ∘ Group.sign
  have h_real : ((groups line).filter real).countP made ≤ (bareSigns line).length := by
    have h_bare := congrArg List.length (delimiters_significant line)
    rw [List.length_map, List.length_map, ← List.countP_eq_length_filter] at h_bare
    calc ((groups line).filter real).countP made
        ≤ ((groups line).filter real).length := List.countP_le_length
      _ = (groups line).countP real := List.countP_eq_length_filter.symm
      _ = ((groups line).map Group.sign).countP Token.isDelimiter := by rw [List.countP_map]
      _ ≤ ((groups line).flatMap Group.tokens).countP Token.isDelimiter :=
          (map_sign_sublist (groups line)).countP_le
      _ ≤ (significant line).countP Token.isDelimiter := by
          rw [← h_tokens, List.countP_append]
          exact Nat.le_add_left _ _
      _ = (bareSigns line).length := h_bare
  have h_forged : ((groups line).filter fun group => !real group).countP made =
      (forged line).length := by
    rw [List.countP_filter, List.countP_eq_length_filter, forged]
    simp [made, real]
  calc (pairs line).length
      = (groups line).countP made := by rw [pairs_eq, List.length_filterMap_eq_countP]
    _ = ((groups line).filter real).countP made + (forged line).length := by
        rw [List.countP_eq_countP_filter_add _ made real, h_forged]
    _ ≤ (bareSigns line).length + (forged line).length := Nat.add_le_add_right h_real _

/-- **Where the pairs of a line come from.** The groups are disjoint pieces of the line, in its
order, and each pair is made by a group around a token of its own. That token is a delimiter, that
is, an `=` that stands bare in the line, or the pair is forged: the token is an `=` that was quoted
or escaped. There are no more pairs than delimiters and forged ones. So if no pair is forged, there
are no more pairs than delimiters, and a line without a bare `=` is malformed all through; this is
so in every line that has no `=` in disguise. -/
theorem signs_of_parse (line : String) :
    (∃ left, left.length ≤ 1 ∧ left ++ (groups line).flatMap Group.tokens = significant line) ∧
    pairs line = (groups line).filterMap Group.pair? ∧
    (∀ group ∈ groups line, ∀ pair, group.pair? = some pair →
      pair = ⟨group.key, group.value⟩ ∧
        (group.sign = ⟨.delimiter, "="⟩ ∨ group ∈ forged line)) ∧
    (∀ group ∈ forged line, group.sign ∈ disguised line) ∧
    ((significant line).filter Token.isDelimiter).map Token.content =
      (bareSigns line).map String.singleton ∧
    (pairs line).length ≤ (bareSigns line).length + (forged line).length ∧
    (forged line = [] → bareSigns line = [] →
      ∀ entry ∈ parse line, ∃ text, entry = .error (.malformedPair text)) ∧
    (disguised line = [] → forged line = []) := by
  refine ⟨exists_append_tokens line, pairs_eq line, ?_, fun group => sign_of_mem_forged,
    delimiters_significant line, length_pairs_le line, ?_, ?_⟩
  · intro group h_mem pair h_pair
    exact ⟨(Group.pair?_eq_some_iff.1 h_pair).2.2, sign_of_pair? h_mem h_pair⟩
  · intro h_forged h_bare entry h_entry
    refine (ok_or_malformed_of_mem_parse h_entry).resolve_left ?_
    rintro ⟨pair, rfl⟩
    -- the entry would be one of the pairs, and there are none
    have h_pair : pair ∈ pairs line := List.mem_filterMap.2 ⟨_, h_entry, rfl⟩
    have h_length := length_pairs_le line
    rw [h_forged, h_bare, List.length_nil] at h_length
    rw [List.length_eq_zero_iff.1 (Nat.le_zero.1 h_length)] at h_pair
    cases h_pair
  · intro h_none
    refine List.eq_nil_iff_forall_not_mem.2 fun group h_mem => ?_
    have h_sign := sign_of_mem_forged h_mem
    rw [h_none] at h_sign
    cases h_sign

/-- A quoted and an escaped `=` are parts of longer tokens, and nothing is forged. -/
theorem signs_of_parse_longer :
    let line := "\"b=c\" d\\="
    disguised line = [] ∧ forged line = [] ∧ bareSigns line = [] ∧
      parse line = [.error (.malformedPair "b=cd=")] ∧
      ∀ entry ∈ parse line, ∃ text, entry = .error (.malformedPair text) := by
  intro line
  have h_none : disguised line = [] := by decide +kernel
  have h_bare : bareSigns line = [] := by decide +kernel
  have h_contents : contents line = ["b=c", "d="] := by decide +kernel
  have h_parse : parse line = [.error (.malformedPair "b=cd=")] := by
    simp [parse, h_contents, scan, ofParts]
  obtain ⟨-, -, -, -, -, -, h_malformed, h_forged⟩ := signs_of_parse line
  exact ⟨h_none, h_forged h_none, h_bare, h_parse, h_malformed (h_forged h_none) h_bare⟩

/-- **A pair without a delimiter:** the only `=` of the line stands between quotes. -/
theorem parse_disguised :
    let line := "a \"=\" b"
    bareSigns line = [] ∧
      (significant line).filter Token.isDelimiter = [] ∧ parse line = [.ok ⟨"a", "b"⟩] := by
  intro line
  have h_contents : contents line = ["a", "=", "b"] := by decide +kernel
  refine ⟨by decide +kernel, by decide +kernel, ?_⟩
  simp [parse, h_contents, scan, ofParts]

end PocketShell.Pair
