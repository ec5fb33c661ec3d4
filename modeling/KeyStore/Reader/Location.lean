import KeyStore.Bytes

/-!
# Places of key stores

The place of a store is written so that the name of an entry can be put behind it: it is empty, for
the current directory, or ends with a slash.
-/

namespace KeyStore

def IsEntryStem (text : String) : Prop :=
  text = "" ∨ text.toList.getLast? = some '/'

instance (text : String) : Decidable (IsEntryStem text) :=
  inferInstanceAs (Decidable (_ ∨ _))

structure StoreLocation where
  text : String
  isEntryStem : IsEntryStem text

namespace StoreLocation

def ofPath (path : String) : StoreLocation :=
  if stem : IsEntryStem path then
    ⟨path, stem⟩
  else
    ⟨path ++ "/", Or.inr (by simp)⟩

theorem ofPath_text (location : StoreLocation) : ofPath location.text = location := by
  simp only [ofPath, location.isEntryStem, dif_pos]

def metadataName : String := "meta"

def metadataPath (location : StoreLocation) : String :=
  location.text ++ metadataName

/-- The path of a version, whose entry has the version in decimal digits as its name. -/
def versionPath (location : StoreLocation) (version : UInt32) : String :=
  location.text ++ toString version

end StoreLocation

end KeyStore
