import SourceChunks.Proofs.Files.Writing

/-!
# What shows of a tree without reading it

Paths are resolved, walks are listed and files are weighed before anything is read.  What these see
of an entry is its outline: its kind, where a link leads, and the size of a file if it is above a
limit.  Two trees of the same outlines (`FileSystem.Alike`) are the same to all of them: every path
leads to the same place or fails for the same reason (`Alike.resolve_eq`), and walks list the same
paths in the same order (`Alike.walk_eq`).
-/

namespace SourceChunks

/-! ### Outlines -/

/-- **What shows of an entry without reading it.**  Sizes show only if they exceed a limit. -/
inductive Outline where
  | regular (excess : Option Nat)
  | outside (excess : Option Nat)
  | link (target : Path)
  | directory
deriving DecidableEq, Repr

namespace Outline

/-- A size that exceeds a limit. -/
def excessOf (limit size : Nat) : Option Nat := if size > limit then some size else none

def isRegular : Outline → Bool
  | .regular _ => true
  | .outside _ | .link _ | .directory => false

def isDirectory : Outline → Bool
  | .directory => true
  | .regular _ | .outside _ | .link _ => false

def target? : Outline → Option Path
  | .link target => some target
  | .regular _ | .outside _ | .directory => none

end Outline

namespace Entry

open Outline

/-- The outline of an entry, with sizes above `limit`. -/
def outline (limit : Nat) : Entry → Outline
  | .file contents => .regular (excessOf limit contents.length)
  | .sealed size _ => .regular (excessOf limit size)
  | .index _ => .regular (excessOf limit 0)
  | .outside (.ok contents) => .outside (excessOf limit contents.length)
  | .outside (.error _) => .outside (excessOf limit 0)
  | .link target => .link target
  | .directory _ => .directory

variable (limit : Nat) (e : Entry)

theorem isRegular_outline : (e.outline limit).isRegular = e.isRegularFile := by
  rcases e with _ | _ | _ | (_ | _) | _ | _ <;> rfl

theorem isDirectory_outline : (e.outline limit).isDirectory = e.entries?.isSome := by
  rcases e with _ | _ | _ | (_ | _) | _ | _ <;> rfl

theorem isSome_target?_outline : (e.outline limit).target?.isSome = e.isLink := by
  rcases e with _ | _ | _ | (_ | _) | _ | _ <;> rfl

variable {limit e}

theorem eq_link_of_outline {target : Path} (h : (e.outline limit).target? = some target) :
    e = .link target := by
  rcases e with _ | _ | target' | (_ | _) | _ | _
  · cases h
  · cases h
  · rw [Option.some.inj h]
  · cases h
  · cases h
  · cases h
  · cases h

/-- **Two entries show alike**, and so does everything below them. -/
def Alike (limit : Nat) (e e' : Entry) : Prop :=
  ∀ l, (e'.get? l).map (outline limit) = (e.get? l).map (outline limit)

theorem alike_refl (limit : Nat) (e : Entry) : Alike limit e e := fun _ => rfl

/-- Nothing lies below two entries that are no directories. -/
theorem alike_of_outline {e' : Entry} (he : e.entries? = none) (he' : e'.entries? = none)
    (h : e'.outline limit = e.outline limit) : Alike limit e e' := by
  intro l
  cases l with
  | nil =>
    show some (e'.outline limit) = some (e.outline limit)
    rw [h]
  | cons n l => rw [Entry.get?_cons_of_leaf he, Entry.get?_cons_of_leaf he']

theorem alike_cons {n : Bytes} {e e' : Entry} {d d' : Directory} (he : Alike limit e e')
    (hd : Alike limit (.directory d) (.directory d')) :
    Alike limit (.directory (.cons n e d)) (.directory (.cons n e' d')) := by
  intro l
  cases l with
  | nil => rfl
  | cons m rest =>
    have hrest := hd (m :: rest)
    simp only [Entry.get?, Directory.find?] at hrest ⊢
    split_ifs
    · exact he rest
    · exact hrest

end Entry

/-! ### Trees that show alike -/

namespace FileSystem

/-- **Two trees show alike**: the same names lead to entries of the same outlines. -/
structure Alike (limit : Nat) (fs fs' : FileSystem) : Prop where
  top : Entry.Alike limit (.directory fs.top) (.directory fs'.top)
  workingDirectory_eq : fs'.workingDirectory = fs.workingDirectory

namespace Alike

variable {limit : Nat} {fs fs' : FileSystem} {dir l : Location} {p root : Path}

theorem symm (h : Alike limit fs fs') : Alike limit fs' fs where
  top l := (h.top l).symm
  workingDirectory_eq := h.workingDirectory_eq.symm

/-- What is there in the one tree is there in the other, and shows alike. -/
theorem exists_get? (h : Alike limit fs fs') {e : Entry} (hget : fs.get? l = some e) :
    ∃ e', fs'.get? l = some e' ∧ e'.outline limit = e.outline limit := by
  have houtline : (fs'.get? l).map (Entry.outline limit) = (fs.get? l).map (Entry.outline limit) :=
    h.top l
  rw [hget, Option.map_some, Option.map_eq_some_iff] at houtline
  exact houtline

theorem get?_eq_none (h : Alike limit fs fs') (hget : fs.get? l = none) : fs'.get? l = none := by
  have houtline : (fs'.get? l).map (Entry.outline limit) = (fs.get? l).map (Entry.outline limit) :=
    h.top l
  rwa [hget, Option.map_none, Option.map_eq_none_iff] at houtline

theorem isSome_directoryAt? (h : Alike limit fs fs') (dir : Location) :
    (fs'.directoryAt? dir).isSome = (fs.directoryAt? dir).isSome := by
  rw [directoryAt?, directoryAt?]
  cases hget : fs.get? dir with
  | none => rw [h.get?_eq_none hget]
  | some e =>
    obtain ⟨e', hget', houtline⟩ := h.exists_get? hget
    rw [hget', Option.bind_some, Option.bind_some, ← Entry.isDirectory_outline limit e', houtline,
      Entry.isDirectory_outline]

/-- One stretch without links, by induction on the segments. -/
theorem resolveWith_eq (h : Alike limit fs fs')
    (follow : Location → List Bytes → Except FileError Target) (dir : Location)
    (segments : List Bytes) :
    fs'.resolveWith follow dir segments = fs.resolveWith follow dir segments := by
  induction segments generalizing dir with
  | nil => rfl
  | cons s rest ih =>
    have hsame := h.isSome_directoryAt? dir
    by_cases hdir : (fs.directoryAt? dir).isSome
    swap
    · rw [Bool.not_eq_true] at hdir
      rw [resolveWith_stuck rest hdir, resolveWith_stuck rest (hsame.trans hdir)]
    have hdir' := hsame.trans hdir
    by_cases hblank : s = [] ∨ s = [Path.dot]
    · rw [resolveWith_blank rest hdir hblank, resolveWith_blank rest hdir' hblank, ih]
    by_cases hparent : s = [Path.dot, Path.dot]
    · rw [resolveWith_parent rest hdir hparent, resolveWith_parent rest hdir' hparent, ih]
    have hs : IsLookedUp s := ⟨hblank, hparent⟩
    cases hget : fs.get? (dir ++ [s]) with
    | none =>
      rw [resolveWith_free rest hdir hs hget, resolveWith_free rest hdir' hs (h.get?_eq_none hget)]
    | some e =>
      obtain ⟨e', hget', houtline⟩ := h.exists_get? hget
      rcases e.isLink_cases with hlink | ⟨target, rfl⟩
      · have hlink' : e'.isLink = false := by
          rw [← Entry.isSome_target?_outline limit, houtline, Entry.isSome_target?_outline, hlink]
        rw [resolveWith_entry rest hdir hs hget hlink, resolveWith_entry rest hdir' hs hget' hlink',
          ih]
      · have htarget : (e'.outline limit).target? = some target := by
          rw [houtline]
          rfl
        obtain rfl := Entry.eq_link_of_outline htarget
        rw [resolveWith_link rest hdir hs hget, resolveWith_link rest hdir' hs hget']

theorem resolveFrom_eq (h : Alike limit fs fs') (links : Nat) :
    fs'.resolveFrom links = fs.resolveFrom links := by
  induction links with
  | zero =>
    funext dir segments
    exact h.resolveWith_eq _ dir segments
  | succ links ih =>
    funext dir segments
    rw [resolveFrom, resolveFrom, ih]
    exact h.resolveWith_eq _ dir segments

/-- **In trees that show alike, a path leads to the same place**, or fails for the same reason. -/
theorem resolve_eq (h : Alike limit fs fs') (p : Path) : fs'.resolve p = fs.resolve p := by
  rw [resolve, resolve, h.workingDirectory_eq, h.resolveFrom_eq]

theorem locate_eq (h : Alike limit fs fs') (p : Path) : fs'.locate p = fs.locate p := by
  rw [locate, locate, h.resolve_eq]

/-- **A path fails in both trees, or leads to entries that show alike.** -/
theorem lookup_cases (h : Alike limit fs fs') (p : Path) :
    (∃ err, fs.lookup p = .error err ∧ fs'.lookup p = .error err) ∨
      ∃ e e', fs.lookup p = .ok e ∧ fs'.lookup p = .ok e' ∧
        e'.outline limit = e.outline limit := by
  cases hlocate : fs.locate p with
  | error err =>
    refine Or.inl ⟨err, ?_, ?_⟩
    · rw [lookup, hlocate]
      rfl
    · rw [lookup, h.locate_eq, hlocate]
      rfl
  | ok l =>
    obtain ⟨e, hget, -⟩ := exists_of_locate hlocate
    obtain ⟨e', hget', houtline⟩ := h.exists_get? hget
    refine Or.inr ⟨e, e', lookup_eq_ok_iff.mpr ⟨l, hlocate, hget⟩, ?_, houtline⟩
    exact lookup_eq_ok_iff.mpr ⟨l, by rw [h.locate_eq, hlocate], hget'⟩

theorem isDirectory_eq (h : Alike limit fs fs') (p : Path) :
    fs'.isDirectory p = fs.isDirectory p := by
  have hentry : ∀ {fs : FileSystem} {e : Entry}, fs.lookup p = .ok e →
      fs.isDirectory p = (e.outline limit).isDirectory := by
    intro fs e hlookup
    rw [isDirectory, status, hlookup]
    rcases e with _ | _ | _ | (_ | _) | _ | _ <;> rfl
  obtain ⟨err, hlookup, hlookup'⟩ | ⟨e, e', hlookup, hlookup', houtline⟩ := h.lookup_cases p
  · rw [isDirectory, isDirectory, status, status, hlookup, hlookup']
  · rw [hentry hlookup, hentry hlookup', houtline]

/-! ### Walks -/

theorem hasFileBelow (h : Alike limit fs fs') (hfile : fs.HasFileBelow root l) :
    fs'.HasFileBelow root l := by
  obtain ⟨d, e, hroot, hget, hregular⟩ := hfile
  obtain ⟨R, hlocate, hd⟩ := lookup_eq_ok_iff.mp hroot
  have hbelow : fs.get? (R ++ l) = some e := by
    rw [get?_append, hd, Option.bind_some, hget]
  obtain ⟨e', hget', houtline⟩ := h.exists_get? hbelow
  have hdir : (fs.directoryAt? R).isSome := by
    rw [directoryAt?_eq_some_iff.mpr hd]
    rfl
  rw [hasFileBelow_iff (by rw [h.locate_eq, hlocate]) (by rw [h.isSome_directoryAt?, hdir])]
  refine ⟨e', hget', ?_⟩
  rw [← Entry.isRegular_outline limit, houtline, Entry.isRegular_outline, hregular]

/-- **In trees that show alike, walks list the same paths in the same order.** -/
theorem walk_eq (h : Alike limit fs fs') (hfs : fs.WellFormed) (hfs' : fs'.WellFormed)
    (skip : Path → Bool) (root : Path) : fs'.walk skip root = fs.walk skip root := by
  by_cases hinput : isStandardInput root = true
  · rw [walk, walk, if_pos hinput, if_pos hinput]
  rw [Bool.not_eq_true] at hinput
  refine (pairwise_walk skip hfs' root).eq_of_mem_iff (pairwise_walk skip hfs root) fun p => ?_
  rw [mem_walk hfs hinput, mem_walk hfs' hinput]
  constructor
  · rintro ⟨l, hp, hfile, hreached⟩
    exact ⟨l, hp, h.symm.hasFileBelow hfile, hreached⟩
  · rintro ⟨l, hp, hfile, hreached⟩
    exact ⟨l, hp, h.hasFileBelow hfile, hreached⟩

end Alike

end FileSystem

end SourceChunks
