import NoteDigest.Console.Demo
import NoteDigest.Console.Summarize
import NoteDigest.Json.Writer
import NoteDigest.Text.Base64
import NoteDigest.Web.Server
import NoteDigest.Main
import NoteDigest.Proofs.Console.Agreement
import NoteDigest.Proofs.Console.Failing
import NoteDigest.Proofs.Directive.Delimiting
import NoteDigest.Proofs.Directive.Hosting
import NoteDigest.Proofs.Directive.Overriding
import NoteDigest.Proofs.Directive.Pieces
import NoteDigest.Proofs.Files.Changing
import NoteDigest.Proofs.Fragment.Decoding
import NoteDigest.Proofs.Fragment.Linking
import NoteDigest.Proofs.Fragment.Ordering
import NoteDigest.Proofs.Note.Composing
import NoteDigest.Proofs.Note.Dividing
import NoteDigest.Proofs.Summary.Counting
import NoteDigest.Proofs.Summary.Settling
import NoteDigest.Proofs.Summary.NormalForm
import NoteDigest.Proofs.Summary.Widening
import NoteDigest.Proofs.Tag.Asking
import NoteDigest.Proofs.Tag.Positions
import NoteDigest.Proofs.Tag.Segments
import NoteDigest.Proofs.Vault.Grounding
import NoteDigest.Proofs.Vault.Offering
import NoteDigest.Proofs.Vault.Privacy
import NoteDigest.Proofs.Workspace.Footprint
import NoteDigest.Proofs.Workspace.Interleaving
import NoteDigest.Proofs.Web.Markup
import NoteDigest.Proofs.Workspace.Statuses
