import SourceChunks.Proofs.Files.Resolving

/-!
# Paths that are spelled differently

Two paths with the same components may still differ in their bytes: slashes can be doubled or stand
at the end, and behind the first segment a `.` can stand anywhere.  None of this changes where a
path leads, only whether it does, for a slash at the end asks for a directory.  The components keep
the segments that count (`Path.steps_eq`), the others can be left out on the way (`Thinned`), and so
two such paths that both lead somewhere lead to the same place (`FileSystem.locate_unique`).
-/

namespace SourceChunks

/-! ### Segments that count -/

namespace Path

/-- Does a segment say nothing?  An empty one and `.` do not. -/
def isBlank (s : Bytes) : Bool := s == [] || s == [dot]

theorem isBlank_iff {s : Bytes} : isBlank s = true ↔ s = [] ∨ s = [dot] := by
  simp [isBlank]

/-- **The segments of a path that say something.** -/
def steps (p : Path) : List Bytes := (splitAt slash p.bytes).filter (!isBlank ·)

/-- The segment that a component stands for. -/
def Component.segment? : Component → Option Bytes
  | .root | .here => none
  | .parent => some [dot, dot]
  | .name n => some n

theorem segment?_component? (s : Bytes) :
    (component? s).bind Component.segment? = if isBlank s then none else some s := by
  unfold component?
  by_cases hblank : s = [] ∨ s = [dot]
  · rw [if_pos hblank, if_pos (isBlank_iff.mpr hblank)]
    rfl
  · rw [if_neg hblank, if_neg (isBlank_iff.not.mpr hblank)]
    split_ifs with hparent
    · rw [hparent]
      rfl
    · rfl

theorem filterMap_segment? (segments : List Bytes) :
    (segments.filterMap component?).filterMap Component.segment?
      = segments.filter (!isBlank ·) := by
  rw [List.filterMap_filterMap, ← List.filterMap_eq_filter]
  refine List.filterMap_congr fun s _ => ?_
  rw [segment?_component?]
  cases hblank : isBlank s with
  | true => simp [Option.guard, hblank]
  | false => simp [Option.guard, hblank]

theorem splitAt_of_isAbsolute {p : Path} (h : p.isAbsolute = true) :
    ∃ rest, splitAt slash p.bytes = [] :: rest := by
  rw [isAbsolute, beq_iff_eq, List.head?_eq_some_iff] at h
  obtain ⟨more, hmore⟩ := h
  refine ⟨splitAt slash more, ?_⟩
  rw [hmore, ← List.nil_append (slash :: more), splitAt_append_cons]
  rfl

/-- **The components of a path keep the segments that say something.** -/
theorem steps_eq (p : Path) : p.steps = p.components.filterMap Component.segment? := by
  obtain ⟨first, rest, hsplit⟩ := List.exists_cons_of_ne_nil (splitAt_ne_nil slash p.bytes)
  have hfirst : (leading p.isAbsolute first).filterMap Component.segment?
      = [first].filter (!isBlank ·) := by
    rw [← filterMap_segment?, leading]
    split_ifs with habsolute hdot
    · -- a leading slash stands behind an empty segment
      obtain ⟨rest', hempty⟩ := splitAt_of_isAbsolute habsolute
      rw [hsplit] at hempty
      rw [(List.cons.inj hempty).1]
      rfl
    · rw [hdot]
      rfl
    · cases hfirst : component? first with
      | none => simp [hfirst]
      | some c => simp [hfirst]
  rw [steps, hsplit, components_eq hsplit, List.filterMap_append, filterMap_segment?, hfirst,
    ← List.filter_append, List.singleton_append]

/-- **They also keep whether it starts at the root.** -/
theorem root_mem_components (p : Path) : Component.root ∈ p.components ↔ p.isAbsolute = true := by
  have hother : ∀ s, component? s ≠ some .root := by
    intro s hs
    unfold component? at hs
    split_ifs at hs <;> cases hs
  obtain ⟨first, rest, hsplit⟩ := List.exists_cons_of_ne_nil (splitAt_ne_nil slash p.bytes)
  rw [components_eq hsplit, List.mem_append, leading]
  constructor
  · rintro (hmem | hmem)
    · split_ifs at hmem with habsolute
      · exact habsolute
      · cases List.mem_singleton.mp hmem
      · exact absurd (Option.mem_toList.mp hmem) (hother first)
    · obtain ⟨s, -, hs⟩ := List.mem_filterMap.mp hmem
      exact absurd hs (hother s)
  · intro habsolute
    rw [if_pos habsolute]
    exact Or.inl (List.mem_singleton_self _)

end Path

/-! ### Leaving segments out -/

/-- **Some segments, and the same ones with blanks left out.** -/
inductive Thinned : List Bytes → List Bytes → Prop
  | nil : Thinned [] []
  | keep (s : Bytes) {segments kept : List Bytes} :
      Thinned segments kept → Thinned (s :: segments) (s :: kept)
  | leave {s : Bytes} (hs : s = [] ∨ s = [Path.dot]) {segments kept : List Bytes} :
      Thinned segments kept → Thinned (s :: segments) kept

theorem thinned_filter (segments : List Bytes) :
    Thinned segments (segments.filter (!Path.isBlank ·)) := by
  induction segments with
  | nil => exact .nil
  | cons s rest ih =>
    cases hblank : Path.isBlank s with
    | true =>
      rw [List.filter_cons_of_neg (by simp [hblank])]
      exact .leave (Path.isBlank_iff.mp hblank) ih
    | false =>
      rw [List.filter_cons_of_pos (by simp [hblank])]
      exact .keep s ih

theorem Thinned.append_left (front : List Bytes) {segments kept : List Bytes}
    (h : Thinned segments kept) : Thinned (front ++ segments) (front ++ kept) := by
  induction front with
  | nil => exact h
  | cons s rest ih => exact .keep s ih

namespace FileSystem

variable {fs : FileSystem} {dir l l' : Location} {p q : Path}

/-- One stretch without links, by induction on what is left out.  `follow` takes over at the first
link, and the segments behind the link are thinned as before. -/
theorem resolveWith_thinned {follow : Location → List Bytes → Except FileError Target}
    (hfollow : ∀ dir segments kept, Thinned segments kept →
      follow dir segments = .ok (.existing l) → follow dir kept = .ok (.existing l))
    {segments kept : List Bytes} (hkept : Thinned segments kept)
    (h : fs.resolveWith follow dir segments = .ok (.existing l)) :
    fs.resolveWith follow dir kept = .ok (.existing l) := by
  induction hkept generalizing dir with
  | nil => exact h
  | @leave s hs segments kept _ ih =>
    by_cases hdir : (fs.directoryAt? dir).isSome
    · rw [resolveWith_blank segments hdir hs] at h
      exact ih h
    · rw [resolveWith_stuck segments (by simpa using hdir)] at h
      cases h
  | @keep s segments kept hthinned ih =>
    by_cases hdir : (fs.directoryAt? dir).isSome
    swap
    · rw [resolveWith_stuck segments (by simpa using hdir)] at h
      cases h
    by_cases hblank : s = [] ∨ s = [Path.dot]
    · rw [resolveWith_blank _ hdir hblank] at h ⊢
      exact ih h
    by_cases hparent : s = [Path.dot, Path.dot]
    · rw [resolveWith_parent _ hdir hparent] at h ⊢
      exact ih h
    cases hget : fs.get? (dir ++ [s]) with
    | none =>
      -- a free name is no place to arrive at
      rw [resolveWith_free _ hdir ⟨hblank, hparent⟩ hget] at h
      split_ifs at h
      cases h
    | some e =>
      rcases e.isLink_cases with hlink | ⟨target, rfl⟩
      · rw [resolveWith_entry _ hdir ⟨hblank, hparent⟩ hget hlink] at h ⊢
        exact ih h
      · rw [resolveWith_link _ hdir ⟨hblank, hparent⟩ hget] at h ⊢
        split_ifs at h with htarget
        rw [if_neg htarget]
        exact hfollow _ _ _ (hthinned.append_left _) h

/-- **Blank segments can be left out on the way to a place.**  By induction on the
number of links. -/
theorem resolveFrom_thinned (links : Nat) {segments kept : List Bytes}
    (hkept : Thinned segments kept) (h : fs.resolveFrom links dir segments = .ok (.existing l)) :
    fs.resolveFrom links dir kept = .ok (.existing l) := by
  induction links generalizing dir segments kept with
  | zero =>
    refine resolveWith_thinned ?_ hkept h
    intro _ _ _ _ hfollow
    cases hfollow
  | succ links ih =>
    refine resolveWith_thinned ?_ hkept h
    intro _ _ _ hkept' hfollow
    exact ih hkept' hfollow

theorem resolveFrom_steps (h : fs.locate p = .ok l) :
    fs.resolveFrom linkLimit (base fs.workingDirectory p) p.steps = .ok (.existing l) := by
  rw [locate_eq_ok_iff, resolve] at h
  split_ifs at h
  exact resolveFrom_thinned linkLimit (thinned_filter _) h

/-- **Paths with the same components lead to the same place**, if both lead somewhere. -/
theorem locate_unique (hcomponents : p.components = q.components) (hp : fs.locate p = .ok l)
    (hq : fs.locate q = .ok l') : l = l' := by
  have hsteps : p.steps = q.steps := by rw [Path.steps_eq, Path.steps_eq, hcomponents]
  have habsolute : p.isAbsolute = q.isAbsolute := by
    rw [Bool.eq_iff_iff, ← Path.root_mem_components, ← Path.root_mem_components, hcomponents]
  have hl := resolveFrom_steps hp
  rw [hsteps, base, habsolute] at hl
  exact Target.existing.inj (Except.ok.inj (hl.symm.trans (resolveFrom_steps hq)))

end FileSystem

end SourceChunks
