import Mathlib.Data.List.Nodup
import ParallelShell.Proofs.Completion.Word
import ParallelShell.Proofs.Text.Encode

set_option autoImplicit false

/-! # Exactly what is offered

For every line and every cursor in it, the candidates are known from the text in front of the
cursor and the names that a completer knows (`Completer.complete_exact`): there are none unless a
single word is being typed, and then there is one for each name of which the word is a proper
prefix, in the order of the octets of the names.

The word is found by two searches, backwards for an `&` and forwards over white space.
`IsTypedWord` says what it is, without a search. The names are found with a search as well, in a
trie that holds their octets. All that matters about it is what it finds (`Finds`): every way to
go on from the octets of the word to those of a name, once. What the shell makes of that and then
sorts by octets is what a completer offers (`Completer.searched_eq_offers`), whatever comes first
in the trie.
-/

namespace ParallelShell

namespace Text

/-- The octets in front of a cursor are the text in front of it. -/
theorem upTo_size_append (before after : Text) : upTo (size before) (before ++ after) = before := by
  induction before with
  | nil =>
      cases after with
      | nil => rfl
      | cons c after =>
          have hpos : 0 < c.utf8Size := c.utf8Size_pos
          exact if_neg (by rw [size_nil]; omega)
  | cons c before ih =>
      rw [size_cons, List.cons_append, upTo, if_pos (Nat.le_add_right _ _), Nat.add_sub_cancel_left,
        ih]

end Text

namespace Completer

variable {names : List Text} {before front part word : Text} {posts : List Octets}
  {xs ys : List Candidate}

/-! ## The typed word -/

/-- **The word that is being typed** at the end of a text: what stands behind the last mark,
without the white space in front. -/
def IsTypedWord (before word : Text) : Prop :=
  ∃ front gap, before = front ++ (gap ++ word) ∧ (front = [] ∨ front.getLast? = some '&') ∧
    '&' ∉ gap ++ word ∧ (∀ ch ∈ gap, isWhiteSpace ch = true) ∧
    ∀ ch ∈ word.head?, isWhiteSpace ch = false

theorem isTypedWord_typedWord (before : Text) : IsTypedWord before (typedWord before) := by
  have hpart := lead_append_typedWord before
  have hmark : '&' ∉ lead before ++ typedWord before := hpart ▸ segmentMark_not_mem_lastPart before
  have hgap : ∀ ch ∈ lead before, isWhiteSpace ch = true := fun _ => isWhiteSpace_of_mem_lead
  have hhead : ∀ ch ∈ (typedWord before).head?, isWhiteSpace ch = false := by
    rw [typedWord, Text.trimStart]
    exact eq_false_of_mem_head?_dropWhile
  rcases exists_append_lastPart before with hb | ⟨front, hb⟩
  · refine ⟨[], lead before, ?_, .inl rfl, hmark, hgap, hhead⟩
    rw [hpart]
    exact hb
  · refine ⟨front ++ ['&'], lead before, ?_, .inr (by simp), hmark, hgap, hhead⟩
    rw [hpart, List.append_assoc]
    exact hb

/-- Behind a mark, what has none itself is the last part. -/
theorem lastPart_append (hfront : front = [] ∨ front.getLast? = some '&') (hpart : '&' ∉ part) :
    lastPart (front ++ part) = part := by
  have hall : ∀ ch ∈ part.reverse, decide (ch ≠ '&') = true := by
    intro ch hch
    rw [decide_eq_true_eq]
    rintro rfl
    exact hpart (List.mem_reverse.mp hch)
  have hnone : front.reverse.takeWhile (· ≠ '&') = [] := by
    rcases hfront with rfl | hlast
    · rfl
    · obtain ⟨init, rfl⟩ := List.getLast?_eq_some_iff.mp hlast
      simp
  rw [lastPart, List.reverse_append, List.takeWhile_append_of_pos hall, hnone, List.append_nil,
    List.reverse_reverse]

/-- **There is one typed word**, and it is the one that is looked for. -/
theorem isTypedWord_iff : IsTypedWord before word ↔ word = typedWord before := by
  constructor
  · rintro ⟨front, gap, rfl, hfront, hmark, hgap, hword⟩
    have hpart : lastPart (front ++ (gap ++ word)) = gap ++ word := lastPart_append hfront hmark
    show word = (lastPart (front ++ (gap ++ word))).dropWhile isWhiteSpace
    rw [hpart, List.dropWhile_append_of_pos hgap]
    cases word with
    | nil => rfl
    | cons ch word => rw [List.dropWhile_cons_of_neg (by simp [hword ch rfl])]
  · rintro rfl
    exact isTypedWord_typedWord before

/-! ## Candidates in order -/

/-- **Strictly increasing** by the octets of the names, so that no name is there twice. -/
def Increasing (xs : List Candidate) : Prop :=
  xs.Pairwise fun x y => Text.encode x.display < Text.encode y.display

theorem Increasing.nodup (h : Increasing xs) : xs.Nodup := by
  refine List.Pairwise.imp ?_ h
  rintro x _ hlt rfl
  exact List.lt_irrefl _ hlt

/-- Candidates in order are determined by which they are. -/
theorem Increasing.eq_of_mem_iff (hxs : Increasing xs) (hys : Increasing ys)
    (hmem : ∀ x, x ∈ xs ↔ x ∈ ys) : xs = ys := by
  have hperm : xs.Perm ys := (List.perm_ext_iff_of_nodup hxs.nodup hys.nodup).mpr hmem
  refine List.Perm.eq_of_pairwise ?_ hxs hys hperm
  intro x y _ _ hlt hgt
  exact absurd hgt (List.lt_asymm hlt)

theorem increasing_offers (names : List Text) (word : Text) : Increasing (offers names word) := by
  have hnodup : (Text.sorted names.eraseDups).Nodup :=
    (List.mergeSort_perm _ Text.le).nodup_iff.mpr (Text.nodup_eraseDups names)
  have hsorted : (Text.sorted names.eraseDups).Pairwise fun s t =>
      Text.encode s < Text.encode t := by
    refine List.Pairwise.imp ?_ ((Text.pairwise_sorted names.eraseDups).and hnodup)
    intro s t h
    exact (Text.encode_lt_iff s t).mpr h
  -- candidates have the names that they come from
  refine List.Pairwise.filterMap (candidate? word) ?_ hsorted
  intro s t hlt x hx y hy
  obtain ⟨_, -, -, rfl⟩ := (candidate?_eq_some_iff word s x).mp hx
  obtain ⟨_, -, -, rfl⟩ := (candidate?_eq_some_iff word t y).mp hy
  exact hlt

/-! ## The names that a trie finds -/

/-- **What a trie finds** when it holds the octets of names: each way to go on from the octets of
a word to those of a name, once, in whatever order. -/
structure Finds (names : List Text) (word : Text) (posts : List Octets) : Prop where
  nodup : posts.Nodup
  mem_iff : ∀ post, post ∈ posts ↔
    post ≠ [] ∧ Text.encode word ++ post ∈ names.map Text.encode

def found (word : Text) (post : Octets) : Candidate :=
  { display := word ++ Text.decode post, replacement := Text.decode post ++ [' '] }

/-- **The candidates for all that was found**, sorted by the octets of their names. -/
def searched (word : Text) (posts : List Octets) : List Candidate :=
  (posts.map (found word)).mergeSort fun x y =>
    decide (Text.encode x.display ≤ Text.encode y.display)

/-- What goes on from the octets of a word to those of a name is the form of what goes on from the
word. -/
theorem encode_append_mem_iff (names : List Text) (word : Text) (post : Octets) :
    (post ≠ [] ∧ Text.encode word ++ post ∈ names.map Text.encode) ↔
      ∃ rest, rest ≠ [] ∧ word ++ rest ∈ names ∧ post = Text.encode rest := by
  rw [List.mem_map]
  constructor
  · rintro ⟨hne, name, hname, hform⟩
    -- behind the form of a word, the octets of a name are cut between two characters
    obtain ⟨rfl, hpost⟩ := Text.encode_append_eq_iff.mp hform.symm
    exact ⟨Text.decode post, mt (Text.decode_eq_nil_iff post).mp hne, hname, hpost.symm⟩
  · rintro ⟨rest, hne, hname, rfl⟩
    refine ⟨?_, word ++ rest, hname, Text.encode_append word rest⟩
    intro hnil
    exact hne (Text.encode_inj hnil)

theorem Finds.mem_iff_exists (h : Finds names word posts) (post : Octets) :
    post ∈ posts ↔ ∃ rest, rest ≠ [] ∧ word ++ rest ∈ names ∧ post = Text.encode rest :=
  (h.mem_iff post).trans (encode_append_mem_iff names word post)

theorem mem_searched (h : Finds names word posts) (x : Candidate) :
    x ∈ searched word posts ↔ x ∈ offers names word := by
  rw [searched, List.mem_mergeSort, List.mem_map, mem_offers]
  constructor
  · rintro ⟨post, hpost, rfl⟩
    obtain ⟨rest, hne, hname, rfl⟩ := (h.mem_iff_exists post).mp hpost
    refine ⟨word ++ rest, hname, (candidate?_eq_some_iff _ _ _).mpr ⟨rest, hne, rfl, ?_⟩⟩
    rw [found, Text.decode_encode]
  · rintro ⟨name, hname, hx⟩
    obtain ⟨rest, hne, rfl, rfl⟩ := (candidate?_eq_some_iff _ _ _).mp hx
    refine ⟨Text.encode rest, (h.mem_iff_exists _).mpr ⟨rest, hne, hname, rfl⟩, ?_⟩
    rw [found, Text.decode_encode]

theorem increasing_searched (h : Finds names word posts) : Increasing (searched word posts) := by
  -- the order of octets is that of texts, which is known to be total
  have horder : (fun x y : Candidate => decide (Text.encode x.display ≤ Text.encode y.display)) =
      fun x y => Text.le x.display y.display := by
    funext x y
    rw [Bool.eq_iff_iff, decide_eq_true_eq, Text.encode_le_iff]
  have hsorted : (searched word posts).Pairwise fun x y =>
      Text.le x.display y.display = true := by
    rw [searched, horder]
    exact Text.pairwise_mergeSort_le Candidate.display _
  -- what was found are octets of texts, so no two of them have the same name
  have hnames : (searched word posts).Pairwise fun x y => x.display ≠ y.display := by
    have hposts : ((posts.map (found word)).map Candidate.display).Nodup := by
      rw [List.map_map]
      refine List.Nodup.map_on ?_ h.nodup
      intro p hp q hq heq
      obtain ⟨rest, -, -, rfl⟩ := (h.mem_iff_exists p).mp hp
      obtain ⟨rest', -, -, rfl⟩ := (h.mem_iff_exists q).mp hq
      simp only [Function.comp_apply, found, Text.decode_encode] at heq
      rw [List.append_cancel_left heq]
    rw [← List.pairwise_map]
    exact ((List.mergeSort_perm _ _).map Candidate.display).nodup_iff.mpr hposts
  refine List.Pairwise.imp ?_ (hsorted.and hnames)
  intro x y hxy
  exact (Text.encode_lt_iff _ _).mpr hxy

/-- **What a trie finds is what is offered**, once it has been sorted. -/
theorem searched_eq_offers (h : Finds names word posts) :
    searched word posts = offers names word :=
  (increasing_searched h).eq_of_mem_iff (increasing_offers names word) (mem_searched h)

/-- There is something that such a trie finds, whatever the names are. -/
theorem exists_finds (names : List Text) (word : Text) : ∃ posts, Finds names word posts := by
  let rests := (names.filterMap (Text.after? word)).eraseDups.filter (· ≠ [])
  have hmem : ∀ rest, rest ∈ rests ↔ rest ≠ [] ∧ word ++ rest ∈ names := by
    intro rest
    rw [List.mem_filter, List.mem_eraseDups, List.mem_filterMap, and_comm]
    simp [Text.after?_eq_some_iff]
  have hnodup : rests.Nodup := (Text.nodup_eraseDups _).filter _
  refine ⟨rests.map Text.encode, List.Nodup.map (fun _ _ => Text.encode_inj) hnodup, ?_⟩
  intro post
  rw [encode_append_mem_iff, List.mem_map]
  constructor
  · rintro ⟨rest, hrest, rfl⟩
    obtain ⟨hne, hname⟩ := (hmem rest).mp hrest
    exact ⟨rest, hne, hname, rfl⟩
  · rintro ⟨rest, hne, hname, rfl⟩
    exact ⟨rest, (hmem rest).mpr ⟨hne, hname⟩, rfl⟩

/-! ## Completing a line -/

/-- Whether a text is one word. -/
def IsOneWord (word : Text) : Prop := word ≠ [] ∧ ∀ ch ∈ word, isWhiteSpace ch = false

/-- **What has to be offered** for a typed word, where names are known. -/
structure IsExact (names : List Text) (word : Text) (offered : List Candidate) : Prop where
  /-- Nothing is offered where no word is typed, or more than one. -/
  eq_nil : ¬ IsOneWord word → offered = []
  /-- The names of the candidates are strictly increasing, by their octets. -/
  increasing : Increasing offered
  /-- There is a candidate for each known name that the word is the beginning of, and not the whole.
  It makes the name and a space of the word. -/
  mem_iff : IsOneWord word → ∀ x, x ∈ offered ↔ ∃ name ∈ names, word <+: name ∧ word ≠ name ∧
    x.display = name ∧ word ++ x.replacement = name ++ [' ']
  /-- They are the candidates for what a trie finds, in whatever order it does. -/
  searched_eq : IsOneWord word → (∃ posts, Finds names word posts) ∧
    ∀ posts, Finds names word posts → searched word posts = offered

theorem candidate?_eq_some_iff_display (word name : Text) (x : Candidate) :
    candidate? word name = some x ↔ word <+: name ∧ word ≠ name ∧ x.display = name ∧
      word ++ x.replacement = name ++ [' '] := by
  rw [candidate?_eq_some_iff]
  constructor
  · rintro ⟨rest, hne, rfl, rfl⟩
    refine ⟨List.prefix_append word rest, ?_, rfl, (List.append_assoc _ _ _).symm⟩
    simpa using hne
  · rintro ⟨⟨rest, rfl⟩, hne, hdisplay, hreplacement⟩
    rw [List.append_assoc] at hreplacement
    refine ⟨rest, by simpa using hne, rfl, ?_⟩
    cases x
    rw [Candidate.mk.injEq]
    exact ⟨hdisplay, List.append_cancel_left hreplacement⟩

theorem candidates_of_isOneWord (c : Completer) (h : IsOneWord (typedWord before)) :
    c.candidates before = offers c.names (typedWord before) := by
  have hspace : (typedWord before).any isWhiteSpace = false := by
    rw [List.any_eq_false]
    intro ch hch
    simp [h.2 ch hch]
  exact if_neg (by simp [h.1, hspace])

theorem candidates_of_not_isOneWord (c : Completer) (h : ¬ IsOneWord (typedWord before)) :
    c.candidates before = [] := by
  apply if_pos
  rw [Bool.or_eq_true, List.isEmpty_iff, List.any_eq_true]
  by_contra hcon
  push Not at hcon
  refine h ⟨hcon.1, ?_⟩
  intro ch hch
  simpa using hcon.2 ch hch

theorem isExact_candidates (c : Completer) (before : Text) :
    IsExact c.names (typedWord before) (c.candidates before) := by
  by_cases hword : IsOneWord (typedWord before)
  · rw [candidates_of_isOneWord c hword]
    refine ⟨absurd hword, increasing_offers _ _, ?_, ?_⟩
    · intro _ x
      rw [mem_offers]
      simp only [candidate?_eq_some_iff_display]
    · intro _
      exact ⟨exists_finds _ _, fun _ => searched_eq_offers⟩
  · rw [candidates_of_not_isOneWord c hword]
    exact ⟨fun _ => rfl, List.Pairwise.nil, fun h => absurd h hword, fun h => absurd h hword⟩

/-- **Completion is exact.** What is offered for a search path, whatever the cursor stands behind
and whatever comes after it, is what has to be offered for the typed word, where the built-ins and
the programs on the search path are known; and it goes to the cursor. -/
theorem complete_exact (s : SearchPath) (t : FileTree) (directory : Location) (before : Text) :
    ∃ word offered, (∀ w, IsTypedWord before w ↔ w = word) ∧
      IsExact (BuiltIn.all.map BuiltIn.name ++ s.names t directory) word offered ∧
      ∀ after, (build s t directory).complete (before ++ after) (Text.size before) =
        { start := Text.size before, candidates := offered } := by
  refine ⟨typedWord before, (build s t directory).candidates before, ?_, ?_, ?_⟩
  · intro w
    exact isTypedWord_iff
  · exact isExact_candidates (build s t directory) before
  · intro after
    rw [complete, Text.upTo_size_append]

end Completer

end ParallelShell
