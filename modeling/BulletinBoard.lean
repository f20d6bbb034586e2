import BulletinBoard.Board.Reception
import BulletinBoard.Main
import BulletinBoard.Proofs.Run.Sound
import BulletinBoard.Proofs.Run.Conversation
import BulletinBoard.Proofs.Run.Alike
import BulletinBoard.Proofs.Run.HiddenText
import BulletinBoard.Proofs.Run.Refusal
import BulletinBoard.Proofs.Template.StoreFiles
import BulletinBoard.Proofs.Run.Amid
import BulletinBoard.Proofs.Run.Exchange
import BulletinBoard.Proofs.Run.Templates
import BulletinBoard.Proofs.Run.OnDemand
import BulletinBoard.Proofs.Template.Layout
import BulletinBoard.Proofs.Template.WellFormed
import BulletinBoard.Proofs.Template.Printing
import BulletinBoard.Proofs.Text.Encoding
import BulletinBoard.Proofs.Run.Charsets
import BulletinBoard.Proofs.Template.StoreNames
import BulletinBoard.Proofs.Run.Supply
import BulletinBoard.Proofs.Run.Budget
import BulletinBoard.Proofs.Run.Forward
import BulletinBoard.Proofs.Run.Labels
import BulletinBoard.Proofs.Files.Texts
import BulletinBoard.Proofs.Run.Includes
import BulletinBoard.Proofs.Run.Hangup
import BulletinBoard.Proofs.Run.Lookups
import BulletinBoard.Proofs.Run.Counts
import BulletinBoard.Proofs.Run.Synonyms
import BulletinBoard.Proofs.Template.Splice
import BulletinBoard.Proofs.Run.Inlining
import BulletinBoard.Proofs.Board.Visits
import BulletinBoard.Proofs.Board.LastUser
import BulletinBoard.Proofs.Board.Talks
import BulletinBoard.Proofs.Run.Accounts
import BulletinBoard.Proofs.Run.Floor
import BulletinBoard.Proofs.Board.Admission
import BulletinBoard.Proofs.Template.Phrases
import BulletinBoard.Proofs.Run.Privileges
import BulletinBoard.Proofs.Run.Narrow
import BulletinBoard.Proofs.Run.LineEnds
import BulletinBoard.Proofs.Run.Faults
import BulletinBoard.Proofs.Run.Calls
import BulletinBoard.Proofs.Files.Listing
import BulletinBoard.Proofs.Template.LoadAll
import BulletinBoard.Proofs.Template.Brackets
import BulletinBoard.Proofs.Template.LabelIndex
import BulletinBoard.Proofs.Run.Repetition
import BulletinBoard.Proofs.Text.Lines
import BulletinBoard.Proofs.Run.Chronicle
import BulletinBoard.Proofs.Run.Responses
import BulletinBoard.Proofs.Text.CodePage
import BulletinBoard.Proofs.Text.LogForm
import BulletinBoard.Proofs.Run.Warnings
