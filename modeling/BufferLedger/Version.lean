/-!
# Versions

The version of a build names the release it belongs to and the commit it was built from.
-/

namespace BufferLedger

structure Version where
  release : String
  commit : Option String
  changed : Bool

namespace Version

def text (v : Version) : String :=
  v.release ++ "-" ++ v.commit.getD "unknown" ++ if v.changed then "-dirty" else ""

def current : Version := ⟨"latest", none, false⟩

end Version

end BufferLedger
