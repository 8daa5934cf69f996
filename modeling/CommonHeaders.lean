import CommonHeaders.Accessors
import CommonHeaders.Attribute
import CommonHeaders.Command.Arguments
import CommonHeaders.Command.Load
import CommonHeaders.Command.Run
import CommonHeaders.Command.Style
import CommonHeaders.Command.Summary
import CommonHeaders.Corpus
import CommonHeaders.Enumeration
import CommonHeaders.Files.Answers
import CommonHeaders.Files.Path
import CommonHeaders.Files.Pattern
import CommonHeaders.Files.Search
import CommonHeaders.Files.Tree
import CommonHeaders.Header.Comments
import CommonHeaders.Header.Line
import CommonHeaders.Header.Scan
import CommonHeaders.Inheritance
import CommonHeaders.Interface
import CommonHeaders.Json.Document
import CommonHeaders.Json.Fault
import CommonHeaders.Json.Numeral
import CommonHeaders.Json.Quoted
import CommonHeaders.Json.Token
import CommonHeaders.Json.Value
import CommonHeaders.Main
import CommonHeaders.Method
import CommonHeaders.Naming
import CommonHeaders.Number.Binary
import CommonHeaders.Number.Decimal
import CommonHeaders.Property
import CommonHeaders.Renaming
import CommonHeaders.Settings
import CommonHeaders.Settings.Reader
import CommonHeaders.Table
import CommonHeaders.Text.Blank
import CommonHeaders.Text.Group
import CommonHeaders.Text.Identifier
import CommonHeaders.Text.Quoted
import CommonHeaders.Text.Recogniser
import CommonHeaders.Text.Word
import CommonHeaders.TypeRef
import CommonHeaders.Unification
import CommonHeaders.Proofs.AccessorMerge
import CommonHeaders.Proofs.CommonMembers
import CommonHeaders.Proofs.Overlay
import CommonHeaders.Proofs.ScanOverlay
import CommonHeaders.Proofs.DeclaredNames
import CommonHeaders.Proofs.HeaderOrder
import CommonHeaders.Proofs.TypeOccurrences
import CommonHeaders.Proofs.ClosedTypes
import CommonHeaders.Proofs.SelectorArity
import CommonHeaders.Proofs.WellFormedTables
import CommonHeaders.Proofs.IndependentHeaders
import CommonHeaders.Proofs.RepeatedRenaming
import CommonHeaders.Proofs.CommonEnums
import CommonHeaders.Proofs.SwappedSides
import CommonHeaders.Proofs.SelfUnification
import CommonHeaders.Proofs.AdoptedProtocols
import CommonHeaders.Proofs.EnumReferences
import CommonHeaders.Proofs.TypeEquivalence
import CommonHeaders.Proofs.NearestMembers
import CommonHeaders.Proofs.WordSubstitution
import CommonHeaders.Proofs.WaitingDeclarations
import CommonHeaders.Proofs.LineUses
import CommonHeaders.Proofs.LineEffects
import CommonHeaders.Proofs.RequiredMembers
import CommonHeaders.Proofs.CollapsedText
import CommonHeaders.Proofs.StrippedComments
import CommonHeaders.Proofs.Groups
import CommonHeaders.Proofs.Brackets
import CommonHeaders.Proofs.Recognisers
import CommonHeaders.Proofs.EnumOpenings
import CommonHeaders.Proofs.Identifiers
import CommonHeaders.Proofs.RemovedMacros
import CommonHeaders.Proofs.EnumItems
import CommonHeaders.Proofs.EnumBodies
import CommonHeaders.Proofs.MacroNames
import CommonHeaders.Proofs.BaseNames
import CommonHeaders.Proofs.PrintedTypes
import CommonHeaders.Proofs.PlacedQualifiers
import CommonHeaders.Proofs.Equivalences
import CommonHeaders.Proofs.TypeCharacters
import CommonHeaders.Proofs.PrintedMethods
import CommonHeaders.Proofs.BlockNames
import CommonHeaders.Proofs.PrintedProperties
import CommonHeaders.Proofs.KeptLines
import CommonHeaders.Proofs.ValueNames
import CommonHeaders.Proofs.SeparatedItems
import CommonHeaders.Proofs.SuppressedAdoptions
import CommonHeaders.Proofs.AngledLists
import CommonHeaders.Proofs.WrittenHeaders
import CommonHeaders.Proofs.GroupCounts
import CommonHeaders.Proofs.TopLevelCuts
import CommonHeaders.Proofs.FailedRuns
