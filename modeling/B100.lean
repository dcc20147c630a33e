import B100.FileTree.Content
import B100.Main
import B100.Proofs.Assembly.Disassembly
import B100.Proofs.Assembly.FirstPass
import B100.Proofs.Assembly.Kinds
import B100.Proofs.Assembly.Renaming
import B100.Proofs.Encoding.KeyCase
import B100.Proofs.Encoding.Peripherals
import B100.Proofs.Encoding.RegisterPairs
import B100.Proofs.Encoding.SettingKeys
import B100.Proofs.Encoding.SystemCommands
import B100.Proofs.Encoding.Tokens
import B100.Proofs.Literal.Agreement
import B100.Proofs.Literal.Grammar
import B100.Proofs.Literal.Index
import B100.Proofs.Literal.LowerCase
import B100.Proofs.Session.History
import B100.Proofs.Settings.DefaultSection
import B100.Proofs.Settings.RoundTrip
import B100.Proofs.Settings.Usable
import B100.Proofs.Text.Fields
import B100.Proofs.Text.LetterCase
import B100.Proofs.Tool.FileList
import B100.Proofs.Tool.ImagePath
import B100.Proofs.Tool.Run
import B100.Session
