import AccessRules.Main
import AccessRules.Permission.OfJson
import AccessRules.Request
import AccessRules.Proofs.Grammar
import AccessRules.Proofs.Reading
import AccessRules.Proofs.OnePass
import AccessRules.Proofs.Viable
import AccessRules.Proofs.ScanRules
import AccessRules.Proofs.Scanning
import AccessRules.Proofs.Tokenization
import AccessRules.Proofs.Positions
import AccessRules.Proofs.Canonical
import AccessRules.Proofs.PaddedWord
import AccessRules.Proofs.Lexemes
import AccessRules.Proofs.Limits
import AccessRules.Proofs.Denial
import AccessRules.Proofs.Answers
import AccessRules.Proofs.Account
import AccessRules.Proofs.ShortCircuit
import AccessRules.Proofs.Decisive
import AccessRules.Proofs.Reasons
import AccessRules.Proofs.Sessions
import AccessRules.Proofs.Retention
import AccessRules.Builtin
import AccessRules.Proofs.GlobMeaning
import AccessRules.Proofs.GlobRegex
import AccessRules.Proofs.Monotone
import AccessRules.Proofs.OneWord
import AccessRules.Proofs.Composition
import AccessRules.Proofs.Runs
import AccessRules.Proofs.Effects
import AccessRules.Proofs.DeclaredOptions
import AccessRules.Proofs.Invocations
import AccessRules.Proofs.Grants
import AccessRules.Proofs.ExitCodes
import AccessRules.Proofs.Numerals
import AccessRules.Proofs.StringLiterals
import AccessRules.Proofs.PermissionNames
import AccessRules.Proofs.SkippedValues
import AccessRules.Proofs.SettingsDocuments
import AccessRules.Proofs.SettingsFormat
import AccessRules.Proofs.Descent
