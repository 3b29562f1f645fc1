import SourceChunks.Registry
import SourceChunks.Proofs.Text.Decoding

/-!
# Extensions and languages

The language of a path depends on its file name alone, and whether it has a supported one depends on
its extension and on the table alone, not on the grammars and queries that are loaded for it.
-/

namespace SourceChunks.Registry

/-- **The extension in lower case** is that of an extension that is text. -/
theorem lowerExtension?_eq_some_iff {p : Path} {low : String} : lowerExtension? p = some low ↔
    ∃ ext, p.extension? = some (Bytes.encode ext) ∧ Lowercase.ofString ext = low := by
  constructor
  · intro h
    obtain ⟨b, hb, hlow⟩ := Option.bind_eq_some_iff.mp h
    obtain ⟨ext, hdecode, rfl⟩ := Option.map_eq_some_iff.mp hlow
    rw [Bytes.decode?_eq_some_iff.mp hdecode] at hb
    exact ⟨ext, hb, rfl⟩
  · rintro ⟨ext, hext, rfl⟩
    rw [lowerExtension?, hext, Option.bind_some, Bytes.decode?_eq_some_iff.mpr rfl, Option.map_some]

/-- **A path has a language if and only if the table lists its extension.** -/
theorem isSome_resolve?_builtin (p : Path) : (builtin.resolve? p).isSome
    = (lowerExtension? p).any fun e => table.any (·.extensions.contains e) := by
  rw [resolve?]
  cases lowerExtension? p with
  | none => rfl
  | some e =>
    rw [Option.bind_some, builtin, ofRows, List.find?_map, Option.isSome_map, List.isSome_find?]
    rfl

/-- The language of a path depends on its file name only. -/
theorem resolve?_of_fileName? (r : Registry) {p q : Path} (h : p.fileName? = q.fileName?) :
    r.resolve? p = r.resolve? q := by
  rw [resolve?, resolve?, lowerExtension?, lowerExtension?, Path.extension?, Path.extension?, h]

end SourceChunks.Registry
