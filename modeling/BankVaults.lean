import BankVaults.Value
import BankVaults.Names
import BankVaults.Prog
import BankVaults.Run
import BankVaults.Bootstrap
import BankVaults.Configure
import BankVaults.World
import BankVaults.InitSound
import BankVaults.Crash
import BankVaults.Concurrent
import BankVaults.ConfigureSound
import BankVaults.MapOrder
import BankVaults.Rerun
import BankVaults.Unseal
import BankVaults.SecretEngines
import BankVaults.Lifecycle
import BankVaults.ConfigureToken
import BankVaults.Operators
