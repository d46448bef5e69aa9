/-
Which parameters a PostgreSQL connection string names.

`postgres_parameter_names` runs over a string that the driver has accepted and
returns the keys; `postgres_config` fills in the network guards whose keys are
absent, so a value that is taken for a key turns a guard off.

* `namesLoop_ends` — the loop ends on every string;
* `Renders` — key/value strings, with white space, quotes and escapes;
* `postgresParameterNames_renders` — the names of such a string are its keys.

Outside the repository: `form_urlencoded::parse`, the parameter `parseForm`.
-/
import DbProxy.Text
import Mathlib.Data.List.DropRight

namespace DbProxy

open Text

/-! ### The scanner -/

/-- `chars.by_ref().take_while(|c| *c != '=')`, which also takes the sign. -/
def takeKey (chars : List Char) : List Char × List Char :=
  (chars.takeWhile (· != '='), (chars.dropWhile (· != '=')).tail)

/-- The innermost loop: to the end of a value, whose closing quote or white space is taken. -/
def skipValue (quoted : Bool) : List Char → List Char
  | [] => []
  | c :: rest =>
    if c == '\\' then
      match rest with
      | [] => []
      | _ :: rest => skipValue quoted rest
    else if (quoted && c == '\'') || (!quoted && isWhiteSpace c) then rest
    else skipValue quoted rest

/-- What is left after the value that follows an equals sign. -/
def afterValue (chars : List Char) : List Char :=
  let chars := chars.dropWhile isWhiteSpace
  if chars.head? = some '\'' then skipValue true chars.tail else skipValue false chars

/-- `str::trim`. -/
def trimmed (text : List Char) : List Char :=
  (text.dropWhile isWhiteSpace).rdropWhile isWhiteSpace

/-- The outer loop, for at most so many rounds; `none` if they do not suffice. -/
def namesLoop : ℕ → List Char → Option (List String)
  | 0, _ => none
  | rounds + 1, chars =>
    if chars.isEmpty then some []
    else
      let (key, chars) := takeKey (chars.dropWhile isWhiteSpace)
      if (trimmed key).isEmpty then some []
      else (namesLoop rounds (afterValue chars)).map (String.ofList (trimmed key) :: ·)

/-- `str::split_once`. -/
def splitOnce (separator : Char) (chars : List Char) : Option (List Char × List Char) :=
  if chars.contains separator then
    some (chars.takeWhile (· != separator), (chars.dropWhile (· != separator)).tail)
  else none

/-- `starts_with("postgres://") || starts_with("postgresql://")`. -/
def isPostgresUrl (chars : List Char) : Bool :=
  "postgres://".toList.isPrefixOf chars || "postgresql://".toList.isPrefixOf chars

/-- `postgres_parameter_names`.  Every round of the loop takes a character, so one more round
than there are characters is enough. -/
def postgresParameterNames (parseForm : String → List (String × String)) (connection : String) :
    List String :=
  let chars := connection.toList
  if isPostgresUrl chars then
    -- the driver splits off the credentials before it looks for the query
    let location := match splitOnce '@' chars with
      | none => chars
      | some (_, rest) => rest
    match splitOnce '?' location with
    | none => []
    | some (_, query) => (parseForm (String.ofList query)).map Prod.fst
  else (namesLoop (chars.length + 1) chars).getD []

/-! ### The loop ends -/

theorem skipValue_escape (quoted : Bool) (c : Char) (rest : List Char) :
    skipValue quoted ('\\' :: c :: rest) = skipValue quoted rest := by
  simp [skipValue]

/-- A character that is no backslash ends the value or belongs to it. -/
theorem skipValue_plain {quoted : Bool} {c : Char} (hc : (c == '\\') = false)
    (rest : List Char) :
    skipValue quoted (c :: rest) =
      if (quoted && c == '\'') || (!quoted && isWhiteSpace c) then rest
      else skipValue quoted rest := by
  cases rest <;> simp [skipValue, hc]

theorem length_skipValue_le (quoted : Bool) : ∀ chars : List Char,
    (skipValue quoted chars).length ≤ chars.length
  | [] => by simp [skipValue]
  | [c] => by
    rw [skipValue]
    split
    · simp
    · split <;> simp [skipValue]
  | c :: c' :: rest => by
    rw [skipValue]
    split
    · have := length_skipValue_le quoted rest
      simp only [List.length_cons]
      omega
    · split
      · simp
      · have := length_skipValue_le quoted (c' :: rest)
        rw [List.length_cons]
        omega

theorem length_afterValue_le (chars : List Char) : (afterValue chars).length ≤ chars.length := by
  have hdrop := (List.dropWhile_sublist isWhiteSpace (l := chars)).length_le
  rw [afterValue]
  split
  · have hskip := length_skipValue_le true (chars.dropWhile isWhiteSpace).tail
    rw [List.length_tail] at hskip
    omega
  · exact (length_skipValue_le false _).trans hdrop

theorem trimmed_nil : trimmed [] = [] := by
  simp [trimmed]

/-- A round that finds a key takes at least one character. -/
theorem length_round_lt {chars : List Char}
    (h : (trimmed (takeKey (chars.dropWhile isWhiteSpace)).1).isEmpty = false) :
    (afterValue (takeKey (chars.dropWhile isWhiteSpace)).2).length < chars.length := by
  have hwhite := (List.dropWhile_sublist isWhiteSpace (l := chars)).length_le
  set start := chars.dropWhile isWhiteSpace
  have hafter := length_afterValue_le (takeKey start).2
  have hkey : (takeKey start).1 ≠ [] := by
    intro hnil
    rw [hnil, trimmed_nil] at h
    simp at h
  have hsplit : (takeKey start).1.length + (start.dropWhile (· != '=')).length = start.length := by
    rw [takeKey, ← List.length_append, List.takeWhile_append_dropWhile]
  have hpos := List.length_pos_iff.mpr hkey
  have htail : (takeKey start).2.length ≤ (start.dropWhile (· != '=')).length := by
    rw [takeKey, List.length_tail]
    omega
  omega

/-- **The loop ends on every string**: more rounds than characters give one result. -/
theorem namesLoop_ends (chars : List Char) :
    ∃ names, ∀ rounds, chars.length < rounds → namesLoop rounds chars = some names := by
  induction hn : chars.length using Nat.strong_induction_on generalizing chars with
  | _ n ih =>
    by_cases hempty : chars.isEmpty = true
    · refine ⟨[], fun rounds hrounds => ?_⟩
      obtain ⟨m, rfl⟩ : ∃ m, rounds = m + 1 := ⟨rounds - 1, by omega⟩
      rw [namesLoop, if_pos hempty]
    by_cases hkey : (trimmed (takeKey (chars.dropWhile isWhiteSpace)).1).isEmpty = true
    · refine ⟨[], fun rounds hrounds => ?_⟩
      obtain ⟨m, rfl⟩ : ∃ m, rounds = m + 1 := ⟨rounds - 1, by omega⟩
      rw [namesLoop, if_neg hempty]
      dsimp only
      rw [if_pos hkey]
    · -- the rest of the string is shorter
      have hlt := length_round_lt (Bool.eq_false_iff.mpr hkey)
      obtain ⟨names, hnames⟩ := ih _ (hn ▸ hlt) _ rfl
      refine ⟨String.ofList (trimmed (takeKey (chars.dropWhile isWhiteSpace)).1) :: names,
        fun rounds hrounds => ?_⟩
      obtain ⟨m, rfl⟩ : ∃ m, rounds = m + 1 := ⟨rounds - 1, by omega⟩
      rw [namesLoop, if_neg hempty]
      dsimp only
      rw [if_neg hkey, hnames m (by omega), Option.map_some]

/-! ### Key/value strings -/

/-- A text written with backslashes: before every special character there is one, before the
others there may be one. -/
inductive Escapes (special : Char → Bool) : List Char → List Char → Prop
  | nil : Escapes special [] []
  | plain {c : Char} {value text : List Char} (hc : special c = false)
      (h : Escapes special value text) : Escapes special (c :: value) (c :: text)
  | escaped (c : Char) {value text : List Char} (h : Escapes special value text) :
      Escapes special (c :: value) ('\\' :: c :: text)

def quotedSpecial (c : Char) : Bool := c == '\\' || c == '\''

def unquotedSpecial (c : Char) : Bool := c == '\\' || isWhiteSpace c

/-- The two ways to write a value. -/
inductive RendersValue : List Char → List Char → Prop
  | quoted {value text : List Char} (h : Escapes quotedSpecial value text) :
      RendersValue value ('\'' :: (text ++ ['\'']))
  | unquoted {value text : List Char} (hne : value ≠ []) (h : Escapes unquotedSpecial value text)
      (hquote : text.head? ≠ some '\'') : RendersValue value text

/-- A key: not empty, without white space and equals signs. -/
def IsKey (key : List Char) : Prop :=
  key ≠ [] ∧ ∀ c ∈ key, isWhiteSpace c = false ∧ c ≠ '='

def White (text : List Char) : Prop := ∀ c ∈ text, isWhiteSpace c = true

instance (key : List Char) : Decidable (IsKey key) :=
  have := List.decidableBAll (fun c => isWhiteSpace c = false ∧ c ≠ '=') key
  inferInstanceAs (Decidable (_ ∧ _))

instance (text : List Char) : Decidable (White text) :=
  List.decidableBAll (fun c => isWhiteSpace c = true) text

/-- A list of pairs as a key/value string: white space anywhere around keys, equals signs and
values, and at least one white space character between a value and the next key. -/
inductive Renders : List (List Char × List Char) → List Char → Prop
  | nil {white : List Char} (h : White white) : Renders [] white
  | cons {key value text before left right tail : List Char}
      {pairs : List (List Char × List Char)} (hkey : IsKey key) (hvalue : RendersValue value text)
      (hbefore : White before) (hleft : White left) (hright : White right)
      (htail : Renders pairs tail)
      (hsep : pairs = [] ∨ ∃ c rest, tail = c :: rest ∧ isWhiteSpace c = true) :
      Renders ((key, value) :: pairs)
        (before ++ (key ++ (left ++ ('=' :: (right ++ (text ++ tail))))))

/-! ### The scanner on key/value strings -/

theorem White.dropWhile_append {white : List Char} (h : White white) (rest : List Char) :
    (white ++ rest).dropWhile isWhiteSpace = rest.dropWhile isWhiteSpace := by
  rw [List.dropWhile_append_of_pos h]

theorem dropWhile_of_head {c : Char} {rest : List Char} (h : isWhiteSpace c = false) :
    (c :: rest).dropWhile isWhiteSpace = c :: rest := by
  rw [List.dropWhile_cons_of_neg (by simp [h])]

theorem equals_not_white : isWhiteSpace '=' = false := by decide

theorem White.no_equals {white : List Char} (h : White white) : ∀ c ∈ white, c ≠ '=' := by
  intro c hc heq
  have hwhite := h c hc
  rw [heq, equals_not_white] at hwhite
  exact absurd hwhite (by simp)

/-- The key and the white space after it. -/
theorem takeKey_append {chars rest : List Char} (h : ∀ c ∈ chars, c ≠ '=') :
    takeKey (chars ++ '=' :: rest) = (chars, rest) := by
  have hpos : ∀ c ∈ chars, (c != '=') = true := fun c hc => by simpa using h c hc
  rw [takeKey, List.takeWhile_append_of_pos hpos, List.dropWhile_append_of_pos hpos]
  simp

theorem trimmed_key {key white : List Char} (hkey : IsKey key) (hwhite : White white) :
    trimmed (key ++ white) = key := by
  obtain ⟨hne, hchars⟩ := hkey
  obtain ⟨c, rest, rfl⟩ := List.exists_cons_of_ne_nil hne
  have hhead := (hchars c (List.mem_cons_self ..)).1
  rw [trimmed, List.cons_append, dropWhile_of_head hhead, ← List.cons_append,
    List.rdropWhile, List.reverse_append,
    List.dropWhile_append_of_pos fun c hc => hwhite c (List.mem_reverse.mp hc)]
  -- the last character of a key is no white space
  obtain ⟨last, front, hreverse⟩ := List.exists_cons_of_ne_nil
    (List.reverse_ne_nil_iff.mpr hne)
  have hlast : last ∈ c :: rest := by
    rw [← List.mem_reverse, hreverse]
    exact List.mem_cons_self ..
  rw [hreverse, dropWhile_of_head (hchars last hlast).1, ← hreverse, List.reverse_reverse]

theorem skipValue_escapes_quoted {value text : List Char} (h : Escapes quotedSpecial value text)
    (rest : List Char) : skipValue true (text ++ '\'' :: rest) = rest := by
  induction h with
  | nil => exact skipValue_plain (by decide) rest
  | plain hc _ ih =>
    rw [quotedSpecial, Bool.or_eq_false_iff] at hc
    rw [List.cons_append, skipValue_plain hc.1, hc.2]
    simpa using ih
  | escaped c _ ih =>
    rw [List.cons_append, List.cons_append, skipValue_escape]
    exact ih

/-- An unquoted value ends before the white space that follows, which is taken. -/
theorem skipValue_escapes_unquoted {value text : List Char}
    (h : Escapes unquotedSpecial value text) {tail : List Char}
    (htail : ∀ c rest, tail = c :: rest → isWhiteSpace c = true) :
    skipValue false (text ++ tail) = tail.tail := by
  induction h with
  | nil =>
    rw [List.nil_append]
    cases tail with
    | nil => rfl
    | cons c rest =>
      have hwhite := htail c rest rfl
      have hslash : (c == '\\') = false := by
        rw [beq_eq_false_iff_ne]
        rintro rfl
        exact absurd hwhite (by decide)
      rw [skipValue_plain hslash, hwhite]
      rfl
  | plain hc _ ih =>
    rw [unquotedSpecial, Bool.or_eq_false_iff] at hc
    rw [List.cons_append, skipValue_plain hc.1, hc.2]
    simpa using ih
  | escaped c _ ih =>
    rw [List.cons_append, List.cons_append, skipValue_escape]
    exact ih

theorem Escapes.head_not_white {value text : List Char} (h : Escapes unquotedSpecial value text)
    (hne : value ≠ []) : ∃ c rest, text = c :: rest ∧ isWhiteSpace c = false := by
  cases h with
  | nil => exact absurd rfl hne
  | plain hc h =>
    rw [unquotedSpecial, Bool.or_eq_false_iff] at hc
    exact ⟨_, _, rfl, hc.2⟩
  | escaped c h => exact ⟨_, _, rfl, by decide⟩

/-- After a value there is the rest of the string, or the rest without the white space that
ended the value. -/
theorem afterValue_renders {value text white tail : List Char} (hvalue : RendersValue value text)
    (hwhite : White white) (htail : ∀ c rest, tail = c :: rest → isWhiteSpace c = true) :
    afterValue (white ++ (text ++ tail)) = tail ∨
      afterValue (white ++ (text ++ tail)) = tail.tail := by
  cases hvalue with
  | quoted h =>
    left
    rw [afterValue, hwhite.dropWhile_append, List.cons_append, dropWhile_of_head (by decide),
      List.head?_cons, if_pos rfl, List.tail_cons, List.append_assoc, List.singleton_append,
      skipValue_escapes_quoted h]
  | unquoted hne h hquote =>
    right
    obtain ⟨c, rest, rfl, hc⟩ := h.head_not_white hne
    rw [afterValue, hwhite.dropWhile_append, List.cons_append, dropWhile_of_head hc, List.head?_cons,
      if_neg (by simpa using hquote), ← List.cons_append, skipValue_escapes_unquoted h htail]

theorem Renders.white_tail {pairs : List (List Char × List Char)} {c : Char} {rest : List Char}
    (h : Renders pairs (c :: rest)) (hc : isWhiteSpace c = true) : Renders pairs rest := by
  generalize htext : c :: rest = text at h
  cases h with
  | nil hwhite =>
    subst htext
    exact .nil fun d hd => hwhite d (List.mem_cons_of_mem _ hd)
  | @cons key value text before left right tail pairs hkey hvalue hbefore hleft hright htail hsep =>
    cases before with
    | nil =>
      -- a key does not start with white space
      obtain ⟨k, key', rfl⟩ := List.exists_cons_of_ne_nil hkey.1
      rw [List.nil_append, List.cons_append, List.cons.injEq] at htext
      have hk := (hkey.2 k (List.mem_cons_self ..)).1
      rw [← htext.1, hc] at hk
      exact absurd hk (by simp)
    | cons b before =>
      rw [List.cons_append, List.cons.injEq] at htext
      rw [htext.2]
      exact .cons hkey hvalue (fun d hd => hbefore d (List.mem_cons_of_mem _ hd)) hleft hright
        htail hsep

/-- White space alone, or a rest that starts with white space. -/
theorem Renders.head_white {pairs : List (List Char × List Char)} {tail : List Char}
    (h : Renders pairs tail)
    (hsep : pairs = [] ∨ ∃ c rest, tail = c :: rest ∧ isWhiteSpace c = true) :
    ∀ c rest, tail = c :: rest → isWhiteSpace c = true := by
  intro c rest htail
  rcases hsep with rfl | ⟨c', rest', htail', hc'⟩
  · cases h with
    | nil hwhite => exact hwhite c (htail ▸ List.mem_cons_self ..)
  · rw [htail, List.cons.injEq] at htail'
    rw [htail'.1]
    exact hc'

/-- One round takes the first pair of the string. -/
theorem round_renders {key value text before left right tail : List Char}
    {pairs : List (List Char × List Char)} (hkey : IsKey key) (hvalue : RendersValue value text)
    (hbefore : White before) (hleft : White left) (hright : White right)
    (htail : Renders pairs tail)
    (hsep : pairs = [] ∨ ∃ c rest, tail = c :: rest ∧ isWhiteSpace c = true) (rounds : ℕ) :
    ∃ rest, Renders pairs rest ∧
      namesLoop (rounds + 1)
        (before ++ (key ++ (left ++ ('=' :: (right ++ (text ++ tail)))))) =
      (namesLoop rounds rest).map (String.ofList key :: ·) := by
  refine ⟨afterValue (right ++ (text ++ tail)), ?_, ?_⟩
  · rcases afterValue_renders hvalue hright (htail.head_white hsep) with h | h
    · rw [h]
      exact htail
    · rw [h]
      cases tail with
      | nil => exact htail
      | cons c rest => exact htail.white_tail (htail.head_white hsep c rest rfl)
  · have hnonempty : (before ++ (key ++ (left ++ ('=' :: (right ++ (text ++ tail)))))).isEmpty =
        false := by simp
    have hstart : (before ++ (key ++ (left ++ ('=' :: (right ++ (text ++ tail)))))).dropWhile
        isWhiteSpace = (key ++ left) ++ '=' :: (right ++ (text ++ tail)) := by
      obtain ⟨c, key', rfl⟩ := List.exists_cons_of_ne_nil hkey.1
      have hc := (hkey.2 c (List.mem_cons_self ..)).1
      rw [hbefore.dropWhile_append, List.cons_append, dropWhile_of_head hc]
      simp
    have hno : ∀ c ∈ key ++ left, c ≠ '=' := by
      intro c hc
      rcases List.mem_append.mp hc with hc | hc
      · exact (hkey.2 c hc).2
      · exact hleft.no_equals c hc
    have hkeyne : key.isEmpty = false := by simpa using hkey.1
    rw [namesLoop, if_neg (by simp [hnonempty]), hstart, takeKey_append hno]
    dsimp only
    rw [trimmed_key hkey hleft, if_neg (by simp [hkeyne])]

theorem namesLoop_renders {pairs : List (List Char × List Char)} :
    ∀ {chars : List Char} {rounds : ℕ}, Renders pairs chars → pairs.length < rounds →
      namesLoop rounds chars = some (pairs.map fun pair => String.ofList pair.1) := by
  induction pairs with
  | nil =>
    intro chars rounds h hrounds
    obtain ⟨m, rfl⟩ : ∃ m, rounds = m + 1 := ⟨rounds - 1, by omega⟩
    cases h with
    | nil hwhite =>
      have hdrop : chars.dropWhile isWhiteSpace = [] := List.dropWhile_eq_nil_iff.mpr hwhite
      rw [namesLoop, hdrop]
      by_cases hempty : chars.isEmpty = true
      · rw [if_pos hempty]
        rfl
      · rw [if_neg hempty]
        simp [takeKey, trimmed_nil]
  | cons pair pairs ih =>
    intro chars rounds h hrounds
    obtain ⟨m, rfl⟩ : ∃ m, rounds = m + 1 := ⟨rounds - 1, by omega⟩
    cases h with
    | cons hkey hvalue hbefore hleft hright htail hsep =>
      obtain ⟨rest, hrest, hround⟩ :=
        round_renders hkey hvalue hbefore hleft hright htail hsep m
      rw [hround, ih hrest (by simpa using hrounds)]
      rfl

/-- Every pair has at least its equals sign. -/
theorem Renders.length_le {pairs : List (List Char × List Char)} {chars : List Char}
    (h : Renders pairs chars) : pairs.length ≤ chars.length := by
  induction h with
  | nil h => simp
  | cons hkey hvalue hbefore hleft hright htail hsep ih =>
    simp only [List.length_append, List.length_cons]
    omega

/-- **The names of a key/value string are its keys, in order**, whatever its values contain;
and the loop ends on every string. -/
theorem postgresParameterNames_renders (parseForm : String → List (String × String)) :
    (∀ (pairs : List (List Char × List Char)) (connection : String),
      Renders pairs connection.toList → isPostgresUrl connection.toList = false →
      postgresParameterNames parseForm connection =
        pairs.map fun pair => String.ofList pair.1) ∧
    (∀ connection : String, ∃ names, ∀ rounds, connection.toList.length < rounds →
      namesLoop rounds connection.toList = some names) := by
  refine ⟨fun pairs connection h hurl => ?_, fun connection => namesLoop_ends _⟩
  have hlen := h.length_le
  rw [postgresParameterNames]
  dsimp only
  rw [hurl, if_neg (by simp), namesLoop_renders h (by omega)]
  rfl

/-- A password that looks like two parameters, in quotes, after an escaped host name. -/
theorem postgresParameterNames_quoted :
    postgresParameterNames (fun _ => []) "host=d\\ b  password = 'a=1 b=2' " =
      ["host", "password"] := by
  have hplain : ∀ value : List Char, value.all (!quotedSpecial ·) = true →
      Escapes quotedSpecial value value := by
    intro value
    induction value with
    | nil => exact fun _ => .nil
    | cons c value ih =>
      intro h
      rw [List.all_cons, Bool.and_eq_true, Bool.not_eq_true'] at h
      exact .plain h.1 (ih h.2)
  have hhost : RendersValue ['d', ' ', 'b'] ['d', '\\', ' ', 'b'] :=
    .unquoted (by decide) (.plain (by decide) (.escaped ' ' (.plain (by decide) .nil))) (by decide)
  have hpassword : RendersValue "a=1 b=2".toList ('\'' :: ("a=1 b=2".toList ++ ['\''])) :=
    .quoted (hplain _ (by decide))
  refine (postgresParameterNames_renders fun _ => []).1
    [("host".toList, ['d', ' ', 'b']), ("password".toList, "a=1 b=2".toList)] _ ?_ (by decide)
  have htail : Renders [("password".toList, "a=1 b=2".toList)] "  password = 'a=1 b=2' ".toList :=
    @Renders.cons _ _ _ [' ', ' '] [' '] [' '] [' '] [] (by decide) hpassword (by decide)
      (by decide) (by decide) (.nil (by decide)) (Or.inl rfl)
  exact @Renders.cons _ _ _ [] [] [] _ _ (by decide) hhost (by decide) (by decide) (by decide)
    htail (Or.inr ⟨' ', " password = 'a=1 b=2' ".toList, by decide, by decide⟩)

end DbProxy
