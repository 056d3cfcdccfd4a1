/-
Snapshots: a text together with the facts about it.

Main definitions:

* `Ambit.Snapshot` — the text, its facts, and its version;
* `Ambit.Snapshot.checked` — a snapshot whose facts fit together.
-/

import Ambit.Store.Check
import Ambit.Text.Bytes

set_option relaxedAutoImplicit false
set_option autoImplicit false

namespace Ambit

/-- A text together with the facts about it. -/
structure Snapshot where
  store : Store
  text : String
  version : UInt64

namespace Snapshot

/-- A snapshot whose facts fit together. -/
def checked (store : Store) (text : String) (version : UInt64) : Answer Snapshot := do
  store.check
  return ⟨store, text, version⟩

def textBefore (s : Snapshot) (position : UInt64) : String := Text.upTo s.text position.toNat

end Snapshot

end Ambit
