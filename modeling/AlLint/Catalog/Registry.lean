import AlLint.Catalog.Architecture
import AlLint.Catalog.Data
import AlLint.Catalog.Performance
import AlLint.Catalog.Quality
import AlLint.Rule.Registry

/-!
# The rules that come with the program
-/

namespace AlLint.Catalog

def rules : List Rule := [
  uiInTable, ruleInPage, lookupInLoop, calcFieldsInLoop, unguardedBulkOp, partialLoadWriteConflict,
  countForExistence, missingDoc, naming, labelPlaceholderComment, nestedConditionals, enumPreference, commitInLoop]

def registry : Registry := (Registry.ofRules rules).toOption.getD {}

theorem ofRules_rules : Registry.ofRules rules = .ok registry := by rfl

end AlLint.Catalog
