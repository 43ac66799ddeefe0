-- SUMMARY: The paths the client accepts: the root and the sequences of components.
import QtZooKeeper.Client.Chroot
import QtZooKeeper.Client.Decoding

/-!
# Valid paths

Every request passes its path through `isValidPath`, which reads it character by
character. Behind a path other than `/` it accepts one more component exactly if
it accepts the path itself, so what it accepts are the root and the sequences of
components (`isValidPath_iff`).
-/

namespace QtZooKeeper

/-- `.` -/
def dot : UInt8 := 46

/-- `flags & ZOO_SEQUENCE`: the server puts a number behind the path. -/
def numbered (flags : Nat) : Bool := flags &&& zooSequence ≠ 0

/-- Where `rest` follows a dot, the component ends at this dot. -/
def endsHere (flags : Nat) (rest : Bytes) : Bool :=
  (rest = [] && !numbered flags) || rest.head? = some slash

/-- The body of the loop of `isValidPath` returns 0 at the character `c`, where
`before` and `lastc` are the two characters before it and `rest` those behind it. -/
def refused (flags : Nat) (before lastc c : UInt8) (rest : Bytes) : Bool :=
  if c = 0 then true
  else if c = slash ∧ lastc = slash then true
  else if c = dot ∧ lastc = dot then before = slash && endsHere flags rest
  else if c = dot then lastc = slash && endsHere flags rest
  else 0 < c && c < 0x1F

/-- The loop of `isValidPath`. -/
def checkChars (flags : Nat) : UInt8 → UInt8 → Bytes → Bool
  | _, _, [] => true
  | before, lastc, c :: rest =>
    if refused flags before lastc c rest then false else checkChars flags lastc c rest

/-- `isValidPath` -/
def isValidPath (path : Bytes) (flags : Nat) : Bool :=
  match path with
  | [] => false
  | first :: rest =>
    if first ≠ slash then false
    -- done checking: it is the root
    else if rest = [] then true
    else if path.getLast? = some slash ∧ numbered flags = false then false
    -- `path[-1]` is not looked at: the character before the first one is no dot
    else checkChars flags slash slash rest

/-- The path of the parent znode. The root has none. -/
def parentPath (path : Bytes) : Option Bytes :=
  if path = [slash] then none
  else
    match path.reverse.dropWhile (· ≠ slash) with
    | [] => none
    | [_] => some [slash]
    | _ :: rest => some rest.reverse

/-- A single component of a path: no slash, no control character but 0x1F, and neither
`.` nor `..`. -/
structure Component (name : Bytes) : Prop where
  ne_nil : name ≠ []
  noSlash : slash ∉ name
  printable : ∀ c ∈ name, 0x1F ≤ c
  ne_dot : name ≠ [dot]
  ne_dotdot : name ≠ [dot, dot]

variable {flags : Nat} {before lastc c : UInt8} {path name rest xs ys : Bytes}

/-! ## One more component -/

theorem checkChars_nil : checkChars flags before lastc [] = true := rfl

theorem checkChars_cons : checkChars flags before lastc (c :: rest) =
    if refused flags before lastc c rest then false else checkChars flags lastc c rest := rfl

theorem refused_slash : refused flags before lastc slash rest = decide (lastc = slash) := by
  by_cases h : lastc = slash
  · simp [refused, h]
  · have hdot : slash ≠ dot := by decide
    have hprintable : ¬ slash < 0x1F := by decide
    simp [refused, h, hdot, hprintable]
    decide

/-- A slash ends a component, with or without a number behind it. -/
theorem endsHere_append : endsHere flags (rest ++ slash :: ys) = endsHere 0 rest := by
  have hzero : numbered 0 = false := rfl
  cases rest <;> simp [endsHere, hzero]

theorem refused_append :
    refused flags before lastc c (rest ++ slash :: ys) = refused 0 before lastc c rest := by
  simp only [refused, endsHere_append]

/-- Behind a slash the character before the slash does not matter. -/
theorem checkChars_slash (before' : UInt8) :
    checkChars flags before slash ys = checkChars flags before' slash ys := by
  have hdot : slash ≠ dot := by decide
  cases ys with
  | nil => rfl
  | cons c rest => simp only [checkChars, refused, hdot, and_false, if_false]

/-- The loop goes through `xs`, which must not end in a slash, and then through `ys`. -/
theorem checkChars_append : checkChars flags before lastc (xs ++ slash :: ys) = true ↔
    checkChars 0 before lastc xs = true ∧ xs.getLast?.getD lastc ≠ slash ∧
      checkChars flags slash slash ys = true := by
  induction xs generalizing before lastc with
  | nil =>
    rw [List.nil_append, checkChars_cons, refused_slash, checkChars_slash slash, checkChars_nil]
    by_cases h : lastc = slash <;> simp [h]
  | cons x xs ih =>
    rw [List.cons_append, checkChars_cons, refused_append, checkChars_cons, List.getLast?_cons]
    by_cases h : refused 0 before lastc x xs = true
    · simp [h]
    · rw [if_neg h, if_neg h, ih, Option.getD_some]

/-- A character of a component is refused only if it is the last dot of `.` or `..`. -/
theorem not_refused (hc : c ≠ slash) (hprintable : 0x1F ≤ c)
    (hdots : c = dot → endsHere flags rest = true → lastc ≠ slash ∧ (lastc = dot → before ≠ slash)) :
    refused flags before lastc c rest = false := by
  have hzero : c ≠ 0 := by
    rintro rfl
    exact absurd hprintable (by decide)
  rw [refused, if_neg hzero, if_neg fun h => hc h.1]
  split
  · next h =>
    rw [Bool.and_eq_false_imp]
    intro hb
    rw [Bool.eq_false_iff]
    exact fun hends => (hdots h.1 hends).2 h.2 (by simpa using hb)
  · split
    · next h =>
      rw [Bool.and_eq_false_imp]
      intro hl
      rw [Bool.eq_false_iff]
      exact fun hends => (hdots h hends).1 (by simpa using hl)
    · simp [UInt8.not_lt.mpr hprintable]

/-- In the middle of a component nothing is refused any more. -/
theorem checkChars_middle (hb : before ≠ slash) (hl : lastc ≠ slash) (hs : slash ∉ xs)
    (hp : ∀ c ∈ xs, 0x1F ≤ c) : checkChars flags before lastc xs = true := by
  induction xs generalizing before lastc with
  | nil => rfl
  | cons c rest ih =>
    simp only [List.mem_cons, not_or] at hs
    simp only [List.forall_mem_cons] at hp
    have hc : c ≠ slash := fun h => hs.1 h.symm
    rw [checkChars_cons, not_refused hc hp.1 fun _ _ => ⟨hl, fun _ => hb⟩]
    exact ih hl hc hs.2 hp.2

/-- Without a slash only the end of the path ends a component. -/
theorem eq_nil_of_endsHere (hs : slash ∉ rest) (h : endsHere flags rest = true) : rest = [] := by
  cases rest with
  | nil => rfl
  | cons c rest =>
    have hc : c ≠ slash := fun hc => hs (by simp [hc])
    simp [endsHere, hc] at h

theorem Component.checkChars_eq (h : Component name) : checkChars flags slash slash name = true := by
  obtain ⟨hne, hs, hp, hdot, hdotdot⟩ := h
  cases name with
  | nil => exact absurd rfl hne
  | cons c rest =>
    simp only [List.mem_cons, not_or] at hs
    simp only [List.forall_mem_cons] at hp
    have hc : c ≠ slash := fun h => hs.1 h.symm
    rw [checkChars_cons, not_refused hc hp.1]
    · cases rest with
      | nil => rfl
      | cons c' rest =>
        simp only [List.mem_cons, not_or] at hs
        simp only [List.forall_mem_cons] at hp
        have hc' : c' ≠ slash := fun h => hs.2.1 h.symm
        rw [checkChars_cons, not_refused hc' hp.2.1]
        · exact checkChars_middle hc hc' hs.2.2 hp.2.2
        · -- the second dot of `..`
          rintro rfl hends
          obtain rfl := eq_nil_of_endsHere hs.2.2 hends
          exact ⟨hc, fun h => absurd (by rw [h]) hdotdot⟩
    · -- the dot of `.`
      rintro rfl hends
      obtain rfl := eq_nil_of_endsHere hs.2 hends
      exact absurd rfl hdot

theorem Component.getLast_ne (h : Component name) (path : Bytes) :
    (path ++ slash :: name).getLast? ≠ some slash := by
  have hne : name.getLast? ≠ none := by simpa using h.ne_nil
  rw [List.getLast?_append, List.getLast?_cons]
  intro hlast
  cases hname : name.getLast? with
  | none => exact hne hname
  | some c =>
    rw [hname] at hlast
    have hc : c = slash := by simpa using hlast
    exact h.noSlash (hc ▸ List.mem_of_getLast? hname)

/-- Behind a path other than the root, one more component is accepted exactly if the
path itself is. -/
theorem isValidPath_append (hname : Component name) (hpath : path ≠ []) :
    isValidPath (path ++ slash :: name) flags = true ↔ path ≠ [slash] ∧ isValidPath path 0 = true := by
  have hzero : numbered 0 = false := rfl
  have hlast := hname.getLast_ne path
  cases path with
  | nil => exact absurd rfl hpath
  | cons first rest =>
    rw [List.cons_append] at hlast ⊢
    have hrest : rest ++ slash :: name ≠ [] := by simp
    by_cases hfirst : first = slash
    · subst hfirst
      rw [isValidPath, if_neg (by simp), if_neg hrest, if_neg fun h => hlast h.1, checkChars_append,
        and_iff_left hname.checkChars_eq, isValidPath, if_neg (by simp)]
      by_cases hroot : rest = []
      -- two slashes in front
      · simp [hroot]
      · have hend : (slash :: rest).getLast? = some slash ↔ rest.getLast?.getD slash = slash := by
          rw [List.getLast?_cons, Option.some.injEq]
        rw [if_neg hroot]
        simp only [hend, hzero, and_true]
        split
        · next h => simp [h]
        · next h => simp [h, hroot]
    · simp [isValidPath, hfirst]

/-- Only the root ends in a slash. -/
theorem isValidPath_slash (hpath : path ≠ []) : isValidPath (path ++ [slash]) 0 = false := by
  cases path with
  | nil => exact absurd rfl hpath
  | cons first rest =>
    have hlast : (first :: (rest ++ [slash])).getLast? = some slash := by
      rw [← List.cons_append, List.getLast?_concat]
    have hzero : numbered 0 = false := rfl
    rw [List.cons_append, isValidPath]
    split
    · rfl
    · rw [if_neg (by simp), if_pos ⟨hlast, hzero⟩]

/-! ## Well-formed paths -/

/-- The path with these components. -/
def ofComponents (cs : List Bytes) : Bytes := cs.flatMap (slash :: ·)

theorem ofComponents_append (cs : List Bytes) (name : Bytes) :
    ofComponents (cs ++ [name]) = ofComponents cs ++ slash :: name := by
  simp [ofComponents]

/-- A character the loop has passed is no control character but 0x1F. -/
theorem printable_of_not_refused (h : refused flags before lastc c rest = false) : 0x1F ≤ c := by
  unfold refused at h
  split at h
  · cases h
  · next hzero =>
    split at h
    · cases h
    · split at h
      · next hdots => rw [hdots.1]; decide
      · split at h
        · next hdot => rw [hdot]; decide
        · have hpos : 0 < c := UInt8.pos_iff_ne_zero.mpr hzero
          simpa [hpos] using h

theorem printable_of_checkChars (h : checkChars flags before lastc xs = true) :
    ∀ c ∈ xs, 0x1F ≤ c := by
  induction xs generalizing before lastc with
  | nil => simp
  | cons c rest ih =>
    rw [checkChars_cons] at h
    split at h
    · cases h
    · next hc =>
      rw [List.forall_mem_cons]
      exact ⟨printable_of_not_refused (Bool.eq_false_iff.mpr hc), ih h⟩

/-- Without a number behind it the loop goes through the last component only if it is
one. -/
theorem component_of_checkChars (hne : name ≠ []) (hs : slash ∉ name)
    (h : checkChars 0 slash slash name = true) : Component name where
  ne_nil := hne
  noSlash := hs
  printable := printable_of_checkChars h
  ne_dot := by
    rintro rfl
    exact absurd h (by decide)
  ne_dotdot := by
    rintro rfl
    exact absurd h (by decide)

theorem Component.isValidPath_top (hname : Component name) :
    isValidPath (slash :: name) flags = true := by
  have hlast := hname.getLast_ne []
  rw [List.nil_append] at hlast
  rw [isValidPath, if_neg (by simp), if_neg hname.ne_nil, if_neg fun h => hlast h.1]
  exact hname.checkChars_eq

theorem two_le_length_ofComponents {cs : List Bytes} (hne : cs ≠ []) (h : ∀ c ∈ cs, Component c) :
    2 ≤ (ofComponents cs).length := by
  cases cs with
  | nil => exact absurd rfl hne
  | cons c cs =>
    have hpos := List.length_pos_of_ne_nil (h c List.mem_cons_self).ne_nil
    rw [ofComponents, List.flatMap_cons, List.length_append, List.length_cons]
    omega

theorem isValidPath_ofComponents {cs : List Bytes} (hne : cs ≠ []) (h : ∀ c ∈ cs, Component c) :
    isValidPath (ofComponents cs) 0 = true := by
  induction cs using List.reverseRecOn with
  | nil => exact absurd rfl hne
  | append_singleton cs name ih =>
    have hname : Component name := h name (by simp)
    rw [ofComponents_append]
    by_cases hcs : cs = []
    · subst hcs
      exact hname.isValidPath_top
    · have hall : ∀ c ∈ cs, Component c := fun c hc => h c (List.mem_append_left _ hc)
      have hlength := two_le_length_ofComponents hcs hall
      have hpath : ofComponents cs ≠ [] := by
        intro hnil
        simp [hnil] at hlength
      rw [isValidPath_append hname hpath]
      refine ⟨?_, ih hcs hall⟩
      intro hroot
      simp [hroot] at hlength

/-- A path with a slash is cut at the last one. -/
theorem exists_last_slash (h : slash ∈ path) : ∃ xs name, path = xs ++ slash :: name ∧ slash ∉ name := by
  obtain ⟨ys, zs, hsplit, hnot⟩ := List.eq_append_cons_of_mem (List.mem_reverse.mpr h)
  refine ⟨zs.reverse, ys.reverse, ?_, by simpa using hnot⟩
  rw [← List.reverse_reverse path, hsplit]
  simp

/-- What `isValidPath` has found of a path other than the root. -/
theorem isValidPath_spec (h : isValidPath path 0 = true) (hroot : path ≠ [slash]) :
    ∃ rest, path = slash :: rest ∧ path.getLast? ≠ some slash ∧
      checkChars 0 slash slash rest = true := by
  have hzero : numbered 0 = false := rfl
  cases path with
  | nil => cases h
  | cons first rest =>
    rw [isValidPath] at h
    split at h
    · cases h
    · next hfirst =>
      obtain rfl := not_not.mp hfirst
      rw [if_neg fun hnil => hroot (by rw [hnil])] at h
      split at h
      · cases h
      · next hlast => exact ⟨rest, rfl, fun hl => hlast ⟨hl, hzero⟩, h⟩

/-- The last component of an accepted path is one. -/
theorem component_of_isValidPath (h : isValidPath (xs ++ slash :: name) 0 = true)
    (hroot : xs ++ slash :: name ≠ [slash]) (hs : slash ∉ name) : Component name := by
  obtain ⟨rest, hpath, hlast, hchars⟩ := isValidPath_spec h hroot
  have hne : name ≠ [] := by
    rintro rfl
    simp at hlast
  cases xs with
  | nil =>
    obtain rfl : name = rest := by simpa using hpath
    exact component_of_checkChars hne hs hchars
  | cons first ys =>
    obtain ⟨-, rfl⟩ : first = slash ∧ ys ++ slash :: name = rest := by simpa using hpath
    exact component_of_checkChars hne hs (checkChars_append.mp hchars).2.2

/-- The accepted paths are the root and the sequences of components. -/
theorem isValidPath_iff : isValidPath path 0 = true ↔
    path = [slash] ∨ ∃ cs, cs ≠ [] ∧ (∀ c ∈ cs, Component c) ∧ path = ofComponents cs := by
  constructor
  · intro hvalid
    -- the induction takes the last component off
    induction hlength : path.length using Nat.strong_induction_on generalizing path with
    | h k ih =>
      by_cases hroot : path = [slash]
      · exact .inl hroot
      · have hmem : slash ∈ path := by
          obtain ⟨rest, rfl, -⟩ := isValidPath_spec hvalid hroot
          exact List.mem_cons_self
        obtain ⟨xs, name, rfl, hs⟩ := exists_last_slash hmem
        have hname := component_of_isValidPath hvalid hroot hs
        refine .inr ?_
        by_cases hxs : xs = []
        · subst hxs
          exact ⟨[name], by simp, by simpa using hname, by simp [ofComponents]⟩
        · obtain ⟨hne, hprefix⟩ := (isValidPath_append hname hxs).mp hvalid
          have hshorter : xs.length < k := by
            rw [← hlength, List.length_append, List.length_cons]
            omega
          obtain ⟨cs, -, hcs, rfl⟩ := (ih xs.length hshorter hprefix rfl).resolve_left hne
          refine ⟨cs ++ [name], by simp, ?_, (ofComponents_append cs name).symm⟩
          intro c hc
          rcases List.mem_append.mp hc with hc | hc
          · exact hcs c hc
          · rwa [List.mem_singleton.mp hc]
  · rintro (rfl | ⟨cs, hne, hcs, rfl⟩)
    · rfl
    · exact isValidPath_ofComponents hne hcs

/-! ## Parents -/

theorem parentPath_append (hname : Component name) : parentPath (path ++ slash :: name) =
    some (if path = [] then [slash] else path) := by
  have hroot : path ++ slash :: name ≠ [slash] := by
    intro h
    have hlength := congrArg List.length h
    have hpos := List.length_pos_of_ne_nil hname.ne_nil
    simp at hlength
    omega
  have hrest : (path ++ slash :: name).reverse.dropWhile (· ≠ slash) = slash :: path.reverse := by
    rw [List.reverse_append, List.reverse_cons, List.append_assoc, List.dropWhile_append_of_pos]
    · simp
    · intro c hc
      rw [List.mem_reverse] at hc
      simpa using ne_of_mem_of_not_mem hc hname.noSlash
  rw [parentPath, if_neg hroot, hrest]
  cases path with
  | nil => rfl
  | cons c path =>
    cases hrev : (c :: path).reverse with
    | nil => simp at hrev
    | cons c' rest =>
      have hback : (c' :: rest).reverse = c :: path := by rw [← hrev, List.reverse_reverse]
      simp only [hback, reduceCtorEq, if_false]

/-- The parent has no other characters than the path. -/
theorem mem_of_parentPath (h : parentPath path = some xs) (hc : c ∈ xs) : c = slash ∨ c ∈ path := by
  unfold parentPath at h
  split at h
  · cases h
  · split at h
    · cases h
    · cases h
      exact .inl (List.mem_singleton.mp hc)
    · next hrest =>
      cases h
      have hmem : c ∈ path.reverse.dropWhile (· ≠ slash) := by
        rw [hrest]
        exact List.mem_cons_of_mem _ (List.mem_reverse.mp hc)
      exact .inr (List.mem_reverse.mp ((List.dropWhile_sublist _).subset hmem))

end QtZooKeeper
