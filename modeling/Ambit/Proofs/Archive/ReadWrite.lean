/-
A store is read back from its text.

Writing a store gives the text of its archive, and reading takes the way back: the text is read as a
JSON value, the value as an archive, and from the archive a store is restored.  Each step recovers
what the one before it wrote.  The reader enters only so many arrays and objects inside one another,
so the types in the store must not be nested deeper than that.

Main results:

* `Ambit.Store.Built.read_write` — **a store that passes the check is read back with the same
  facts**.
-/

import Ambit.Proofs.Archive.Fact
import Ambit.Proofs.Archive.Restore

set_option relaxedAutoImplicit false
set_option autoImplicit false

namespace Ambit.Store

theorem read_render {a : Archive} (h : a.toJson.nesting ≤ Json.maxDepth) :
    read a.toJson.render = a.restore := by
  have hparse : Json.parse a.toJson.render = some a.toJson :=
    (Archive.codec_archive.plain a).parse_render
  have hdecode : Archive.ofJson Json.maxDepth a.toJson = some a :=
    Archive.codec_archive.recovers Json.maxDepth a h
  rw [read, hparse, Option.bind_some, hdecode]

/-- **A store is read back from its text with the same facts**, whatever they are, if it has the
version that is understood, passes the check, and is not nested too deep.  Its archive is then the
same as well. -/
theorem Built.read_write {s : Store} (h : s.Built) (hversion : s.version = Archive.currentVersion)
    (hcheck : s.check = .ok ()) (hnesting : s.archive.toJson.nesting ≤ Json.maxDepth) :
    ∃ r, read s.write = .ok r ∧ r.facts = s.facts ∧ r.archive = s.archive := by
  have hfacts := h.facts_rebuild hversion
  refine ⟨s.archive.rebuild, ?_, hfacts, archive_of_facts hfacts⟩
  rw [write, read_render hnesting, h.restore_archive hversion hcheck]

/-- A store with a name of unusual characters, a span whose ends are the wrong way round, types
inside types, and a type parameter that was replaced. -/
def motley : Store :=
  empty
    |>.insertScope { id := ⟨3⟩, kind := .nameSpace, span := ⟨9, 2⟩ }
    |>.insertSymbol
      { id := ⟨5⟩, kind := .type, name := "\"\\\n\x01€😀", scope := ⟨3⟩, arity := 1,
        modifiers := [.static, .sealed] }
    |>.insertTypeParam { id := ⟨6⟩, owner := ⟨5⟩, ordinal := 7 }
    |>.insertTypeParam
      { id := ⟨6⟩, owner := ⟨5⟩, ordinal := 0,
        constraints := [.nullable (.array (.named ⟨5⟩ [.param ⟨6⟩, .unresolved]) 2)] }
    |>.insertInterception { interceptor := ⟨5⟩, target := ⟨18446744073709551615, 0⟩ }
    |>.register .object ⟨5⟩

/-- It is read back with the same facts. -/
theorem read_write_motley :
    motley.version = Archive.currentVersion ∧ motley.check = .ok () ∧
      motley.archive.toJson.nesting = 9 ∧
      ∃ r, read motley.write = .ok r ∧ r.facts = motley.facts ∧ r.archive = motley.archive := by
  have hbuilt : motley.Built :=
    .register _ _ (.insertInterception _ (.insertTypeParam _ (.insertTypeParam _
      (.insertSymbol _ (.insertScope _ .empty)))))
  have hnesting : motley.archive.toJson.nesting = 9 := rfl
  have hcheck : motley.check = .ok () := rfl
  exact ⟨rfl, hcheck, hnesting, hbuilt.read_write rfl hcheck (by rw [hnesting]; decide)⟩

end Ambit.Store
