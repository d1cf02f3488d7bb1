import FrontEnd.Main
import FrontEnd.Scanner.Replay
import FrontEnd.Script.Stages
import FrontEnd.Proofs.CommandLine.Exit
import FrontEnd.Proofs.Compilation.Decoding
import FrontEnd.Proofs.Compilation.Series
import FrontEnd.Proofs.Compilation.Source
import FrontEnd.Proofs.Forest.Appended
import FrontEnd.Proofs.Forest.Ending
import FrontEnd.Proofs.Forest.Order
import FrontEnd.Proofs.Forest.Reading
import FrontEnd.Proofs.Forest.Undo
import FrontEnd.Proofs.Lexer.Split
import FrontEnd.Proofs.Path.Companion
import FrontEnd.Proofs.Scanner.Echo
import FrontEnd.Proofs.Scanner.Sharing
import FrontEnd.Proofs.Scanner.Transparent
import FrontEnd.Proofs.Script.Builds
import FrontEnd.Proofs.Script.Declaration
import FrontEnd.Proofs.Script.Extension
import FrontEnd.Proofs.Script.Limited
import FrontEnd.Proofs.Script.Log
import FrontEnd.Proofs.Script.Unlisted
