import Phrasebook.Assets.Memory
import Phrasebook.Assets.Tree
import Phrasebook.Lock.Run
import Phrasebook.Plural.Languages
import Phrasebook.Resolver.Lookup
import Phrasebook.Text.Escape
import Phrasebook.Proofs.Outcome
import Phrasebook.Proofs.Plural.Grammar
import Phrasebook.Proofs.Plural.Lexing
import Phrasebook.Proofs.Plural.Reading
import Phrasebook.Proofs.Number.Reading
import Phrasebook.Proofs.Po.Rendering
import Phrasebook.Proofs.Po.Junk
import Phrasebook.Proofs.Po.Recovery
import Phrasebook.Proofs.Resolver.History
import Phrasebook.Proofs.Resolver.Atomicity
import Phrasebook.Proofs.Plural.Brackets
import Phrasebook.Proofs.Plural.Denoting
import Phrasebook.Proofs.Plural.Nesting
import Phrasebook.Proofs.Plural.Chain
import Phrasebook.Proofs.Plural.Flattening
import Phrasebook.Proofs.Po.Exchange
import Phrasebook.Proofs.Po.Continuation
import Phrasebook.Proofs.Po.Splitting
import Phrasebook.Proofs.Plural.LineEnd
import Phrasebook.Proofs.Po.Header
import Phrasebook.Proofs.Po.Joining
import Phrasebook.Proofs.Catalog.Loading
import Phrasebook.Proofs.Plural.Failing
import Phrasebook.Proofs.Resolver.Answers
import Phrasebook.Proofs.Text.Sorting
import Phrasebook.Proofs.Assets.Listing
import Phrasebook.Proofs.Text.Lines
import Phrasebook.Proofs.Assets.Indexing
import Phrasebook.Proofs.Text.Casing
import Phrasebook.Proofs.Locale.Canonical
import Phrasebook.Proofs.Locale.Spelling
import Phrasebook.Proofs.Po.Localized
import Phrasebook.Proofs.Catalog.Overriding
import Phrasebook.Proofs.Catalog.Matching
import Phrasebook.Proofs.Catalog.Reloading
import Phrasebook.Proofs.Resolver.Operations
import Phrasebook.Proofs.Resolver.Rescanning
import Phrasebook.Proofs.Lock.Holding
import Phrasebook.Proofs.Resolver.Blocks
import Phrasebook.Proofs.Resolver.Interleaving
import Phrasebook.Proofs.Resolver.Snapshots
import Phrasebook.Proofs.Lock.Queue
import Phrasebook.Proofs.Assets.Walking
import Phrasebook.Proofs.Assets.Links
import Phrasebook.Proofs.Assets.Returning
import Phrasebook.Proofs.Assets.Mirroring
import Phrasebook.Proofs.Catalog.Interchanging
import Phrasebook.Proofs.Assets.Ordering
import Phrasebook.Proofs.Printf.Escapes
import Phrasebook.Proofs.Lock.Withdrawing
import Phrasebook.Proofs.Plural.Magnitude
import Phrasebook.Proofs.Plural.Degrading
import Phrasebook.Proofs.Plural.Substituting
import Phrasebook.Proofs.Plural.Limiting
import Phrasebook.Proofs.Po.Language
import Phrasebook.Proofs.Assets.Declaring
import Phrasebook.Proofs.Po.Spelling
import Phrasebook.Proofs.Printf.Overflowing
import Phrasebook.Proofs.Printf.Reporting
import Phrasebook.Proofs.Printf.Filling
import Phrasebook.Proofs.Po.Lookups
import Phrasebook.Proofs.Locale.Detecting
import Phrasebook.Proofs.Po.Untranslated
import Phrasebook.Proofs.Plural.Stripping
import Phrasebook.Proofs.Po.Writing
import Phrasebook.Proofs.Po.Nameless
import Phrasebook.Proofs.Plural.Dividing
