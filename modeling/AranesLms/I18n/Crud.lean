import Mathlib.Data.Finset.Sort
import Mathlib.Data.Prod.Lex
import AranesLms.UserRole.Models

/-!
# Translations

`upsert_small` and `upsert_large` of `src/i18n/crud.py`: the read of the stored item and, given
what it returned, the write and commit.  The lists are ordered by key.
-/

namespace AranesLms

/-- The entries in the order of their keys. -/
def sortedRows {κ ν : Type} [LinearOrder κ] (m : Finmap fun _ : κ => ν) : List (κ × ν) :=
  (m.keys.sort (· ≤ ·)).filterMap fun key => (m.lookup key).map fun value => (key, value)

/-- `_merge_translation_patch`. -/
def mergeTranslationPatch (currentTranslationMap : Option TranslationMap)
    (translationPatch : TranslationMap) : TranslationMap :=
  translationPatch ∪ currentTranslationMap.getD ∅

variable (db : Database)

def listSmall : List (String × TranslationMap) := sortedRows db.translateSmall

/-- `list_large`; pairs of keys are compared component by component. -/
def listLarge : List ((String × String) × TranslationMap) :=
  ((db.translateLarge.keys.map toLex.toEmbedding).sort (· ≤ ·)).filterMap fun key =>
    (db.translateLarge.lookup (ofLex key)).map fun value => (ofLex key, value)

def getSmallOptional (key : String) : Option TranslationMap := db.translateSmall.lookup key

def getLargeOptional (key1 key2 : String) : Option TranslationMap :=
  db.translateLarge.lookup (key1, key2)

/-- The commit of `upsert_small`: an item that was not there is inserted, which fails when it has
been inserted meanwhile; otherwise its map is written, if it has changed. -/
def writeSmall (key : String) (existingItem : Option TranslationMap) (title : TranslationMap) :
    Except CrudError Database :=
  match existingItem with
  | none =>
    if key ∈ db.translateSmall then .error (.integrityError .primaryKey)
    else .ok { db with translateSmall := db.translateSmall.insert key title }
  | some m =>
    if m = title then .ok db
    else .ok { db with translateSmall := db.translateSmall.insert key title }

/-- The commit of `upsert_large`. -/
def writeLarge (key1 key2 : String) (existingItem : Option TranslationMap)
    (description : TranslationMap) : Except CrudError Database :=
  match existingItem with
  | none =>
    if (key1, key2) ∈ db.translateLarge then .error (.integrityError .primaryKey)
    else .ok { db with translateLarge := db.translateLarge.insert (key1, key2) description }
  | some m =>
    if m = description then .ok db
    else .ok { db with translateLarge := db.translateLarge.insert (key1, key2) description }

def upsertSmall (key : String) (translationPatch : TranslationMap) :
    Except CrudError (TranslationMap × Database) := do
  let existingItem := getSmallOptional db key
  let title := mergeTranslationPatch existingItem translationPatch
  let db' ← writeSmall db key existingItem title
  return (title, db')

def upsertLarge (key1 key2 : String) (translationPatch : TranslationMap) :
    Except CrudError (TranslationMap × Database) := do
  let existingItem := getLargeOptional db key1 key2
  let description := mergeTranslationPatch existingItem translationPatch
  let db' ← writeLarge db key1 key2 existingItem description
  return (description, db')

end AranesLms
